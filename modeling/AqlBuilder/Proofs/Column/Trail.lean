import AqlBuilder.Proofs.Binding.Merged
import AqlBuilder.Proofs.Column.Origin
import AqlBuilder.Proofs.Text.Pieces
import Mathlib.Data.List.Perm.Subperm
import Mathlib.Order.WellFoundedSet

/-!
# The names that a column leads through

A name in the projection stands for a column, which may be a name in the projection again. If the
names end, they are different from each other, so the table has an entry for each of them, and they
are all followed.

What a column stands for then depends on few names: on those that it leads through, on the path at
their end, and on the first attribute of this path. Two registries that agree at these names write
the column alike.

- `Scope.Trail` are the names that a column leads through; by `Scope.Trail.target_eq` the path at
  their end is where the column leads to.
- `Registry.AgreesAt`: two registries look a name up alike, whatever references are announced.
- `Scope.KeepsTo`: a column whose names are among given ones.
- `Scope.KeepsTo.resolve_eq`: such a column is written alike where registries agree, and by
  `Scope.KeepsTo.resolve_announce` also where further references are announced.
-/

namespace AqlBuilder

/-- The name under which a column is looked up. -/
def Column.name (column : String) : String := String.ofList (normalForm column.toList)

namespace Entries

variable {α : Type} {entries : Entries α} {key name : String} {v : α}

/-- The values under a key, first the one that is found. -/
def valuesAt (key : String) (entries : Entries α) : List α :=
  (entries.filter fun entry => entry.1 = key).map Prod.snd

/-- Putting a value under a key replaces the first value under it. -/
theorem valuesAt_put (key name : String) (v : α) (entries : Entries α) :
    valuesAt name (put key v entries) =
      if key = name then v :: (valuesAt name entries).tail else valuesAt name entries := by
  induction entries with
  | nil =>
      by_cases hname : key = name <;> simp [valuesAt, put, hname]
  | cons pair rest ih =>
      obtain ⟨k, w⟩ := pair
      unfold put
      by_cases hk : k = key
      · subst hk
        by_cases hname : k = name <;> simp [valuesAt, hname]
      · rw [if_neg hk]
        unfold valuesAt at ih ⊢
        by_cases hname : k = name
        · have hne : key ≠ name := fun h => hk (hname.trans h.symm)
          rw [if_neg hne] at ih ⊢
          simp [hname, ih]
        · by_cases hkey : key = name <;> simp_all

/-- The value under a key is the first of those under it. -/
theorem get?_eq_head? (key : String) (entries : Entries α) :
    get? key entries = (valuesAt key entries).head? := by
  induction entries with
  | nil => rfl
  | cons pair rest ih =>
      obtain ⟨k, w⟩ := pair
      unfold valuesAt at ih ⊢
      by_cases hk : k = key <;> simp [get?, hk, ih]

theorem mem_iff_mem_valuesAt : (key, v) ∈ entries ↔ v ∈ valuesAt key entries := by
  simp [valuesAt]

/-- Two tables that are alike at a name: with the same values under it, and under each key with the
name itself at the same places. So they stay alike, whatever is put in both. -/
structure AlikeAt (name : String) (first second : Entries String) : Prop where
  own : valuesAt name second = valuesAt name first
  head : ∀ key, name ∈ (valuesAt key second).head? ↔ name ∈ (valuesAt key first).head?
  tail : ∀ key, name ∈ (valuesAt key second).tail ↔ name ∈ (valuesAt key first).tail

variable {first second third pairs : Entries String}

theorem AlikeAt.refl (name : String) (entries : Entries String) : AlikeAt name entries entries :=
  ⟨rfl, fun _ => Iff.rfl, fun _ => Iff.rfl⟩

theorem AlikeAt.trans (h : AlikeAt name first second) (h' : AlikeAt name second third) :
    AlikeAt name first third :=
  ⟨h'.own.trans h.own, fun key => (h'.head key).trans (h.head key),
    fun key => (h'.tail key).trans (h.tail key)⟩

/-- Tables that are alike at a name stay so if the same is put in both. -/
theorem AlikeAt.put (h : AlikeAt name first second) (key v : String) :
    AlikeAt name (first.put key v) (second.put key v) := by
  refine ⟨?_, fun k => ?_, fun k => ?_⟩
  · rw [valuesAt_put, valuesAt_put, h.own]
  · rw [valuesAt_put, valuesAt_put]
    by_cases hk : key = k
    · rw [if_pos hk, if_pos hk]
      rfl
    · rw [if_neg hk, if_neg hk]
      exact h.head k
  · rw [valuesAt_put, valuesAt_put]
    by_cases hk : key = k
    · rw [if_pos hk, if_pos hk]
      exact h.tail k
    · rw [if_neg hk, if_neg hk]
      exact h.tail k

/-- Tables that are alike at a name stay so if the same entries are put in both. -/
theorem AlikeAt.putAll (h : AlikeAt name first second) (pairs : Entries String) :
    AlikeAt name (first.putAll pairs) (second.putAll pairs) := by
  induction pairs generalizing first second with
  | nil => exact h
  | cons pair rest ih => exact ih (h.put pair.1 pair.2)

/-- Putting one value changes nothing at a name that is not the key, nor a value under it. -/
theorem alikeAt_put (hkey : key ≠ name) {v : String} (hv : v ≠ name) (hold : (key, name) ∉ first) :
    AlikeAt name first (first.put key v) := by
  rw [mem_iff_mem_valuesAt] at hold
  have hhead : name ∉ (valuesAt key first).head? := fun h => hold (List.mem_of_mem_head? h)
  refine ⟨?_, fun k => ?_, fun k => ?_⟩
  · rw [valuesAt_put, if_neg hkey]
  · rw [valuesAt_put]
    by_cases hk : key = k
    · subst hk
      rw [if_pos rfl]
      exact iff_of_false (fun h => hv (Option.some.inj h)) hhead
    · rw [if_neg hk]
  · rw [valuesAt_put]
    by_cases hk : key = k
    · rw [if_pos hk]
      rfl
    · rw [if_neg hk]

theorem AlikeAt.get?_eq (h : AlikeAt name first second) : second.get? name = first.get? name := by
  rw [get?_eq_head?, get?_eq_head?, h.own]

/-- The name is a value in both or in neither. -/
theorem AlikeAt.mem_iff (h : AlikeAt name first second) :
    (key, name) ∈ second ↔ (key, name) ∈ first := by
  have hcut : ∀ values : List String, name ∈ values ↔ name ∈ values.head? ∨ name ∈ values.tail := by
    intro values
    cases values with
    | nil => simp
    | cons v rest => simp [eq_comm]
  rw [mem_iff_mem_valuesAt, mem_iff_mem_valuesAt, hcut, hcut (valuesAt key first), h.head, h.tail]

end Entries

namespace Registry

/-- Two registries that look a name up alike, whatever references are announced. -/
structure AgreesAt (r r' : Registry) (name : String) : Prop where
  column : r'.columnFor? name = r.columnFor? name
  definitions : Entries.AlikeAt name r.definitions r'.definitions

variable {r r' : Registry} {name : String}

/-- Registries that agree about a name still do if the same is announced in both. -/
theorem AgreesAt.announce (h : r.AgreesAt r' name) (entries : Entries String) :
    (r.announce entries).AgreesAt (r'.announce entries) name :=
  ⟨h.column, h.definitions.putAll entries⟩

theorem AgreesAt.expressionOf? (h : r.AgreesAt r' name) :
    r'.expressionOf? name = r.expressionOf? name := h.definitions.get?_eq

/-- Registries that agree about a name know it both or neither. -/
theorem AgreesAt.isVariable (h : r.AgreesAt r' name) : r'.isVariable name = r.isVariable name := by
  have hreference : ∀ expression,
      (name, expression) ∈ r'.definitions ↔ (name, expression) ∈ r.definitions := by
    intro expression
    rw [Entries.mem_iff_mem_valuesAt, Entries.mem_iff_mem_valuesAt, h.definitions.own]
  rw [Bool.eq_iff_iff, isVariable_iff, isVariable_iff]
  constructor
  · rintro (hmem | hmem)
    · exact .reference ((hreference _).mp hmem)
    · exact .expression (h.definitions.mem_iff.mp hmem)
  · rintro (hmem | hmem)
    · exact .reference ((hreference _).mpr hmem)
    · exact .expression (h.definitions.mem_iff.mpr hmem)

/-- What was a reference stays one. -/
theorem isSome_expressionOf?_announce (entries : Entries String)
    (h : (r.expressionOf? name).isSome = true) :
    ((r.announce entries).expressionOf? name).isSome = true := by
  obtain ⟨expression, hexpression⟩ := Option.isSome_iff_exists.mp h
  have hkey : name ∈ Entries.keys r.definitions := Entries.exists_get?.mp ⟨_, hexpression⟩
  exact Option.isSome_iff_exists.mpr
    (Entries.exists_get?.mpr (Entries.mem_keys_putAll.mpr (.inl hkey)))

end Registry

namespace Scope

/-- The column that is followed next, if the column is a name in the projection. -/
def further? (sc : Scope) (column : String) : Option String :=
  if (sc.aliases.expressionOf? (Column.name column)).isSome ||
      (Column.normalForm column.toList).contains '.' then none
  else (sc.aliases.columnFor? (Column.name column)).filter (· ≠ Column.name column)

/-- The names that a column leads through, and the path at their end. -/
inductive Trail (sc : Scope) : String → List String → List Char → Prop
  | stop {column : String} (h : sc.further? column = none) :
      Trail sc column [] (Column.normalForm column.toList)
  | step {column further : String} {names : List String} {path : List Char}
      (h : sc.further? column = some further) (h' : Trail sc further names path) :
      Trail sc column (Column.name column :: names) path

/-- A column that leads through names of a kind to a path that is of the kind, too, with its first
attribute. -/
def KeepsTo (sc : Scope) (kind : String → Prop) (column : String) : Prop :=
  ∃ names path, sc.Trail column names path ∧ (∀ name ∈ names, kind name) ∧
    kind (String.ofList path) ∧ ∀ first ∈ (Column.segments path).head?, kind (String.ofList first)

variable {sc sc' : Scope} {column further : String} {names : List String} {path : List Char}
  {kind : String → Prop}

/-- Without fuel a column leads to itself. -/
theorem targetWithin_zero (sc : Scope) (column : String) :
    sc.targetWithin 0 column = Column.normalForm column.toList := by
  unfold targetWithin
  dsimp only
  cases sc.aliases.columnFor? (String.ofList (Column.normalForm column.toList)) <;> exact ite_self _

/-- A column that leads no further leads to itself. -/
theorem targetWithin_of_none (h : sc.further? column = none) (fuel : Nat) :
    sc.targetWithin fuel column = Column.normalForm column.toList := by
  cases fuel with
  | zero => exact sc.targetWithin_zero column
  | succ fuel =>
      unfold further? Column.name at h
      unfold targetWithin
      dsimp only
      split
      · rfl
      case isFalse hfollowed =>
        rw [if_neg hfollowed] at h
        cases hnext : sc.aliases.columnFor? (String.ofList (Column.normalForm column.toList)) with
        | none => rfl
        | some target =>
            rw [hnext] at h
            have hsame : target = String.ofList (Column.normalForm column.toList) := by
              simpa using h
            exact if_pos hsame

/-- A column leads where the column behind it leads. -/
theorem targetWithin_of_some (h : sc.further? column = some further) (fuel : Nat) :
    sc.targetWithin (fuel + 1) column = sc.targetWithin fuel further := by
  unfold further? Column.name at h
  split at h
  · cases h
  case isFalse hfollowed =>
    obtain ⟨hnext, hother⟩ := Option.filter_eq_some_iff.mp h
    conv_lhs => unfold targetWithin
    dsimp only
    rw [if_neg hfollowed, hnext]
    exact if_neg (of_decide_eq_true hother)

/-- A name that is followed is in the table. -/
theorem mem_of_further? (h : sc.further? column = some further) :
    (further, Column.name column) ∈ sc.aliases.columns := by
  unfold further? at h
  split at h
  · cases h
  · obtain ⟨entry, hentry, rfl⟩ := Option.map_eq_some_iff.mp (Option.filter_eq_some_iff.mp h).1
    have hname : entry.2 = Column.name column := by
      simpa using List.find?_some hentry
    rw [← hname]
    exact List.mem_of_find?_eq_some hentry

/-- Spellings that are looked up under one name have one path. -/
theorem normalForm_of_name {other : String} (h : Column.name column = Column.name other) :
    Column.normalForm column.toList = Column.normalForm other.toList := by
  unfold Column.name at h
  exact String.ofList_injective h

/-- What a column leads to depends on its name alone. -/
theorem further?_of_name {other : String} (h : Column.name column = Column.name other) :
    sc.further? column = sc.further? other := by
  unfold further?
  rw [h, normalForm_of_name h]

/-- How a column is written depends on its name alone. -/
theorem resolve_of_name {other : String} (h : Column.name column = Column.name other) :
    sc.resolve column = sc.resolve other := by
  have htarget : sc.target column = sc.target other := by
    unfold target targetWithin
    rw [normalForm_of_name h]
  rw [resolve_eq_origin, resolve_eq_origin, origin, origin, htarget]

namespace Trail

/-- The names that a column leads through are determined by it. -/
theorem unique {other : String} {names' : List String} {path' : List Char}
    (h : sc.Trail column names path) (h' : sc.Trail other names' path')
    (hname : Column.name column = Column.name other) : names = names' := by
  induction h generalizing other names' with
  | stop hstop =>
      rw [further?_of_name hname] at hstop
      cases h' with
      | stop _ => rfl
      | step hstep _ => rw [hstop] at hstep; cases hstep
  | step hstep _ ih =>
      rw [further?_of_name hname] at hstep
      cases h' with
      | stop hstop => rw [hstop] at hstep; cases hstep
      | step hstep' hrest =>
          rw [hstep] at hstep'
          cases hstep'
          rw [ih hrest rfl, hname]

/-- Another spelling has the same trail, -/
theorem of_name {other : String} (h : sc.Trail column names path)
    (hname : Column.name column = Column.name other) : sc.Trail other names path := by
  cases h with
  | stop hstop =>
      rw [normalForm_of_name hname]
      exact .stop ((further?_of_name hname).symm.trans hstop)
  | step hstep hrest =>
      rw [hname]
      exact .step ((further?_of_name hname).symm.trans hstep) hrest

/-- The rest of a trail from one of its names. -/
theorem exists_from {name : String} (h : sc.Trail column names path) (hmem : name ∈ names) :
    ∃ other rest, Column.name other = name ∧ sc.Trail other (name :: rest) path ∧
      rest.length < names.length := by
  induction h with
  | stop _ => cases hmem
  | @step column further names path hstep hrest ih =>
      rcases List.mem_cons.mp hmem with rfl | hmem
      · exact ⟨column, names, rfl, .step hstep hrest, Nat.lt_succ_self _⟩
      · obtain ⟨other, rest, hname, htrail, hlength⟩ := ih hmem
        exact ⟨other, rest, hname, htrail, Nat.lt_succ_of_lt hlength⟩

/-- A column that is looked up under a name of a trail, or under its path, leads to this path. -/
theorem exists_of_name (other : String) (h : sc.Trail column names path)
    (hother : Column.name other ∈ names ∨ Column.name other = String.ofList path) :
    ∃ rest, sc.Trail other rest path := by
  rcases hother with hmem | hpath
  · obtain ⟨column', rest, hname, htrail, -⟩ := h.exists_from hmem
    exact ⟨_, htrail.of_name hname⟩
  · induction h with
    | stop hstop => exact ⟨_, (Trail.stop hstop).of_name hpath.symm⟩
    | step _ _ ih => exact ih hpath

/-- No name comes twice, for the names behind it would come again and again. -/
theorem nodup (h : sc.Trail column names path) : names.Nodup := by
  induction h with
  | stop _ => exact List.nodup_nil
  | @step column further names path hstep hrest ih =>
      refine List.nodup_cons.mpr ⟨fun hmem => ?_, ih⟩
      obtain ⟨other, rest, hname, htrail, hlength⟩ := hrest.exists_from hmem
      have hsame := (Trail.step hstep hrest).unique htrail hname.symm
      rw [(List.cons.inj hsame).2] at hlength
      exact Nat.lt_irrefl _ hlength

/-- A column leads through names in the projection. -/
theorem subset (h : sc.Trail column names path) :
    names ⊆ sc.aliases.columns.map Prod.snd := by
  induction h with
  | stop _ => exact List.nil_subset _
  | step hstep _ ih =>
      exact List.cons_subset.mpr ⟨List.mem_map.mpr ⟨_, mem_of_further? hstep, rfl⟩, ih⟩

/-- The table has an entry for each name. -/
theorem length_le (h : sc.Trail column names path) : names.length ≤ sc.aliases.columns.length := by
  have hle := (h.nodup.subperm h.subset).length_le
  rwa [List.length_map] at hle

/-- Names and paths are looked up without blanks around them. -/
theorem trimmed {name : String} (h : sc.Trail column names path)
    (hname : name ∈ names ∨ name = String.ofList path) : Text.Trimmed name.toList := by
  have hnormal : ∀ column : String, Text.Trimmed (Column.normalForm column.toList) := fun column =>
    Text.trimmed_dotArrows.mpr (Text.trimmed_trimBlanks _)
  induction h with
  | @stop column _ =>
      rcases hname with hname | rfl
      · cases hname
      · rw [String.toList_ofList]
        exact hnormal column
  | @step column further names path _ _ ih =>
      rcases hname with hname | hname
      · rcases List.mem_cons.mp hname with rfl | hname
        · rw [Column.name, String.toList_ofList]
          exact hnormal column
        · exact ih (.inl hname)
      · exact ih (.inr hname)

/-- With fuel for all names a column leads to the end of its trail. -/
theorem targetWithin_eq (h : sc.Trail column names path) {fuel : Nat}
    (hfuel : names.length ≤ fuel) :
    sc.targetWithin fuel column = path := by
  induction h generalizing fuel with
  | stop hstop => exact targetWithin_of_none hstop fuel
  | @step column further names path hstep _ ih =>
      obtain ⟨rest, rfl⟩ : ∃ rest, fuel = rest + 1 :=
        Nat.exists_eq_succ_of_ne_zero (Nat.ne_of_gt (Nat.lt_of_lt_of_le (Nat.succ_pos _) hfuel))
      rw [targetWithin_of_some hstep]
      exact ih (Nat.le_of_succ_le_succ hfuel)

/-- The path at the end of the names is where a column leads to. -/
theorem target_eq (h : sc.Trail column names path) : sc.target column = path :=
  h.targetWithin_eq h.length_le

/-- A column is written as what the path at the end stands for. -/
theorem resolve_eq (h : sc.Trail column names path) :
    sc.resolve column = (sc.originAt path).text := by
  rw [resolve_eq_origin, origin, h.target_eq]

/-- A column that leads to a reference has a trail. -/
theorem exists_of_reference
    (h : (sc.aliases.expressionOf? (String.ofList (sc.target column))).isSome = true) :
    ∃ names, sc.Trail column names (sc.target column) := by
  have hwithin : ∀ fuel column,
      (sc.aliases.expressionOf? (String.ofList (sc.targetWithin fuel column))).isSome = true →
        ∃ names, sc.Trail column names (sc.targetWithin fuel column) := by
    intro fuel
    induction fuel with
    | zero =>
        intro column hreference
        rw [targetWithin_zero] at hreference ⊢
        exact ⟨[], .stop (if_pos (Bool.or_eq_true_iff.mpr (.inl hreference)))⟩
    | succ fuel ih =>
        intro column hreference
        cases hnext : sc.further? column with
        | none =>
            rw [targetWithin_of_none hnext]
            exact ⟨[], .stop hnext⟩
        | some further =>
            rw [targetWithin_of_some hnext] at hreference ⊢
            obtain ⟨names, htrail⟩ := ih further hreference
            exact ⟨_, .step hnext htrail⟩
  exact hwithin _ column h

/-- Further references do not change a trail if they are none of its names. -/
theorem announce {r : Registry} {docVar : Option String} {entries : Entries String}
    (h : Trail ⟨r, docVar⟩ column names path)
    (hnew : ∀ name, name ∈ names ∨ name = String.ofList path → name ∉ Entries.keys entries) :
    Trail ⟨r.announce entries, docVar⟩ column names path := by
  have hfurther : ∀ {column : String}, Column.name column ∉ Entries.keys entries →
      further? ⟨r.announce entries, docVar⟩ column = further? ⟨r, docVar⟩ column := by
    intro column hname
    have hsame : (r.announce entries).expressionOf? (Column.name column) =
        r.expressionOf? (Column.name column) := by
      unfold Registry.expressionOf? Registry.announce
      rw [Entries.get?_putAll, Entries.get?_ofPairs_eq_none.mpr hname, Option.none_or]
    unfold further?
    dsimp only
    rw [hsame]
    rfl
  induction h with
  | stop hstop => exact .stop ((hfurther (hnew _ (.inr rfl))).trans hstop)
  | step hstep _ ih =>
      refine .step ((hfurther (hnew _ (.inl List.mem_cons_self))).trans hstep)
        (ih fun name hname => ?_)
      exact hnew name (hname.imp_left (List.mem_cons_of_mem _))

/-- A registry that agrees at the names has the same trail. -/
theorem of_agrees (h : sc.Trail column names path)
    (hnames : ∀ name ∈ names, sc.aliases.AgreesAt sc'.aliases name)
    (hpath : sc.aliases.AgreesAt sc'.aliases (String.ofList path)) :
    sc'.Trail column names path := by
  have hfurther : ∀ {column : String}, sc.aliases.AgreesAt sc'.aliases (Column.name column) →
      sc'.further? column = sc.further? column := by
    intro column hname
    unfold further?
    rw [hname.expressionOf?, hname.column]
  induction h with
  | stop hstop => exact .stop ((hfurther hpath).trans hstop)
  | step hstep _ ih =>
      obtain ⟨hfirst, hrest⟩ := List.forall_mem_cons.mp hnames
      exact .step ((hfurther hfirst).trans hstep) (ih hrest hpath)

end Trail

namespace KeepsTo

/-- A column that keeps to names of a kind keeps to those of a wider kind. -/
theorem mono {other : String → Prop} (h : sc.KeepsTo kind column)
    (hkind : ∀ name, kind name → other name) : sc.KeepsTo other column := by
  obtain ⟨names, path, htrail, hnames, hpath, hfirst⟩ := h
  exact ⟨names, path, htrail, fun name hname => hkind name (hnames name hname), hkind _ hpath,
    fun first hmem => hkind _ (hfirst first hmem)⟩

/-- A column that keeps to names still does where further references are announced; it may end at
one of them. -/
theorem announce {r : Registry} {docVar : Option String} (h : KeepsTo ⟨r, docVar⟩ kind column)
    (entries : Entries String) : KeepsTo ⟨r.announce entries, docVar⟩ kind column := by
  obtain ⟨names, path, htrail, hnames, hpath, hfirst⟩ := h
  induction htrail with
  | @stop column hstop =>
      refine ⟨[], _, .stop ?_, hnames, hpath, hfirst⟩
      unfold further? at hstop ⊢
      split at hstop
      case isTrue hended =>
        refine if_pos ?_
        rw [Bool.or_eq_true] at hended ⊢
        exact hended.imp_left (Registry.isSome_expressionOf?_announce entries)
      case isFalse =>
        split
        · rfl
        · exact hstop
  | @step column further names path hstep hrest ih =>
      obtain ⟨hname, hrest⟩ := List.forall_mem_cons.mp hnames
      obtain ⟨names', path', htrail, hkept⟩ := ih hrest hpath hfirst
      unfold further? at hstep
      split at hstep
      · cases hstep
      case isFalse hfollowed =>
        rw [Bool.or_eq_true, not_or] at hfollowed
        cases hreference : ((r.announce entries).expressionOf? (Column.name column)).isSome with
        | true =>
            -- The name is a reference now, and a path of one attribute.
            have hstop : further? ⟨r.announce entries, docVar⟩ column = none :=
              if_pos (by rw [hreference]; rfl)
            refine ⟨[], _, .stop hstop, nofun, hname, fun first hmem => ?_⟩
            have hsingle : Column.segments (Column.normalForm column.toList) =
                [Column.normalForm column.toList] :=
              Text.splitBy_of_notMem (mt List.contains_iff_mem.mpr hfollowed.2)
            rw [hsingle] at hmem
            obtain rfl : Column.normalForm column.toList = first := Option.some.inj hmem
            exact hname
        | false =>
            have hfurther : further? ⟨r.announce entries, docVar⟩ column = some further := by
              unfold further?
              rw [if_neg (by rw [hreference, Bool.false_or]; exact hfollowed.2)]
              exact hstep
            obtain ⟨hnames', hends⟩ := hkept
            exact ⟨_, _, .step hfurther htrail, List.forall_mem_cons.mpr ⟨hname, hnames'⟩, hends⟩

/-- A column is written alike in two registries that agree at the names that it keeps to. -/
theorem resolve_eq (h : sc.KeepsTo (sc.aliases.AgreesAt sc'.aliases) column)
    (htables : sc'.aliases.tables = sc.aliases.tables) (hdocVar : sc'.docVar = sc.docVar) :
    sc'.resolve column = sc.resolve column := by
  obtain ⟨names, path, htrail, hnames, hpath, hfirst⟩ := h
  rw [htrail.resolve_eq, (htrail.of_agrees hnames hpath).resolve_eq]
  unfold originAt
  rw [hpath.expressionOf?]
  cases sc.aliases.expressionOf? (String.ofList path) with
  | some text => rfl
  | none =>
      unfold directOrigin
      cases hsegments : Column.segments path with
      | nil => rfl
      | cons first rest =>
          have hvariable := (hfirst first (by rw [hsegments]; rfl)).isVariable
          dsimp only
          unfold Registry.tableVariable? Registry.isTableVariable
          rw [hvariable, htables, hdocVar]

/-- Also where further references are announced. -/
theorem resolve_announce {r r' : Registry} {docVar : Option String}
    (h : KeepsTo ⟨r, docVar⟩ (r.AgreesAt r') column) (htables : r'.tables = r.tables)
    (entries : Entries String) : resolve ⟨r'.announce entries, docVar⟩ column =
      resolve ⟨r.announce entries, docVar⟩ column :=
  ((h.announce entries).mono fun _ hname => hname.announce entries).resolve_eq
    htables rfl

end KeepsTo

end Scope

end AqlBuilder

/-!
## Names in the projection that do not lead back

A name in the projection stands for a column, which may be a name in the projection again. Names
that never lead back to themselves come to an end, as the table has finitely many.

- `Registry.LeadsTo` is one step from a name to the next.
- `Registry.Acyclic`: no name leads back to itself.
- `Registry.Acyclic.exists_trail`: then every column has a trail, whatever references are announced.
-/

namespace AqlBuilder

namespace Registry

/-- A name stands for a column that is looked up under the next name. A path of several attributes
is no name in the projection, and a column under its own name leads no further. -/
def LeadsTo (r : Registry) (name next : String) : Prop :=
  '.' ∉ name.toList ∧ ∃ column, r.columnFor? name = some column ∧ column ≠ name ∧
    Column.name column = next

/-- No name in the projection leads back to itself. -/
def Acyclic (r : Registry) : Prop := ∀ name, ¬ Relation.TransGen r.LeadsTo name name

/-- One step from a column is one step from its name. -/
theorem leadsTo_of_further? {sc : Scope} {column further : String}
    (h : sc.further? column = some further) :
    sc.aliases.LeadsTo (Column.name column) (Column.name further) := by
  unfold Scope.further? at h
  split at h
  · cases h
  case isFalse hfollowed =>
    obtain ⟨hnext, hother⟩ := Option.filter_eq_some_iff.mp h
    refine ⟨fun hdot => hfollowed (Bool.or_eq_true_iff.mpr (.inr ?_)), further, hnext,
      of_decide_eq_true hother, rfl⟩
    unfold Column.name at hdot
    rw [String.toList_ofList] at hdot
    exact List.contains_iff_mem.mpr hdot

/-- Names that never lead back come to an end: by induction along the names of the table, of which
there are finitely many. -/
theorem Acyclic.exists_trail {sc : Scope} (h : sc.aliases.Acyclic) (column : String) :
    ∃ names path, sc.Trail column names path := by
  let names : Set String := {name | name ∈ sc.aliases.columns.map Prod.snd}
  let Behind (next name : String) : Prop := Relation.TransGen sc.aliases.LeadsTo name next
  have hirrefl : Std.Irrefl Behind := ⟨h⟩
  have htrans : IsTrans String Behind := ⟨fun _ _ _ hfirst hsecond => hsecond.trans hfirst⟩
  have hstrict : IsStrictOrder String Behind := { hirrefl, htrans with }
  have hfounded : names.WellFoundedOn Behind :=
    (List.finite_toSet (sc.aliases.columns.map Prod.snd)).wellFoundedOn
  have hmem : ∀ {column further}, sc.further? column = some further → Column.name column ∈ names :=
    fun hnext => List.mem_map.mpr ⟨_, Scope.mem_of_further? hnext, rfl⟩
  have hinside : ∀ name ∈ names, ∀ column, Column.name column = name →
      ∃ names path, sc.Trail column names path := by
    intro name hname
    refine hfounded.induction (P := fun name => ∀ column, Column.name column = name →
      ∃ names path, sc.Trail column names path) hname fun name _ ih column hcolumn => ?_
    cases hnext : sc.further? column with
    | none => exact ⟨_, _, .stop hnext⟩
    | some further =>
        have hstep : Behind (Column.name further) name :=
          hcolumn ▸ .single (leadsTo_of_further? hnext)
        cases hlast : sc.further? further with
        | none => exact ⟨_, _, .step hnext (.stop hlast)⟩
        | some _ =>
            obtain ⟨names, path, htrail⟩ := ih _ (hmem hlast) hstep further rfl
            exact ⟨_, _, .step hnext htrail⟩
  cases hnext : sc.further? column with
  | none => exact ⟨_, _, .stop hnext⟩
  | some further => exact hinside _ (hmem hnext) column rfl

/-- References have nothing to do with it. -/
theorem Acyclic.withDefinitions {r : Registry} (h : r.Acyclic) (definitions : Entries String) :
    Acyclic { r with definitions := definitions } := h

end Registry

end AqlBuilder
