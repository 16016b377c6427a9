import AqlBuilder.Alias.Rules
import AqlBuilder.Proofs.Builder.Proper
import AqlBuilder.Proofs.Column.Spelled
import AqlBuilder.Proofs.Script.World

/-!
# Every spelling of a column is written alike

In whatever order a program makes builders and calls their methods, the names of collections and
variables that a column may begin with have no blank in front. So the conditions under which the
spellings of a column mean the same are conditions on the names alone.

- `Builder.Flush`: a builder whose collection and whose variables are flush.
- `Call.flush_apply` is the step of one call, `World.Advance.flush` one step of a program, and
  `World.Reached.flush` a whole program.
- `every_spelling_resolves_alike` is the law, for paths of any length.
-/

namespace AqlBuilder

open Supply

/-!
## Names of collections begin with no blank

A column is trimmed before it is cut into the name of a collection and a path. So it can be told
apart only if the name does not begin with a blank. The names of collections are trimmed when they
are read, and so are the variables that are given to them; a generated variable has no blank at all.
Only a sub-query may get a variable with a blank in front, and it is registered under this variable
itself.
-/

/-- The variable of a collection is flush, or registered under itself; it is not empty. -/
structure Registry.FlushEntry (entry : String × String) : Prop where
  ne_empty : entry.2 ≠ ""
  flush : entry.2 = entry.1 ∨ Text.Flush entry.2.toList

/-- A registry all of whose variables are flush. -/
def Registry.Flush (r : Registry) : Prop := ∀ entry ∈ r.tables, FlushEntry entry

/-- A builder whose collection and whose variables are flush. -/
structure Builder.Flush (b : Builder) : Prop where
  aliases : b.aliases.Flush
  source : ∀ name docVar, b.source = some (.collection name docVar) → Text.Flush name.toList

/-- An action that makes a flush builder of any that is. -/
def Builder.MakesFlush (make : Action) : Prop :=
  ∀ b : Builder, b.Flush → (make b).Always Builder.Flush

/-- A sub-query argument that is flush or makes flush builders. -/
inductive SubQuery.Flush : SubQuery → Prop
  | finished {sub : Builder} (h : sub.Flush) : Flush (.finished sub)
  | closure {make : Action} (h : Builder.MakesFlush make) : Flush (.closure make)

/-- The name of a collection is read without blanks, and so is its variable. -/
theorem flush_tableAndAlias (text : String) :
    Text.Flush (tableAndAlias text).1.toList ∧ ∀ v ∈ (tableAndAlias text).2,
      Text.Flush v.toList := by
  have htrimmed : ∀ text, Text.Flush (String.ofList (Text.trimBlanks text)).toList := by
    intro text
    rw [String.toList_ofList]
    exact (Text.trimmed_trimBlanks text).begins
  unfold tableAndAlias nameAndAlias?
  cases Text.cutAs (Text.trimBlanks text.toList) with
  | none => exact ⟨htrimmed _, nofun⟩
  | some parts =>
      refine ⟨htrimmed _, fun v hv => ?_⟩
      cases hv
      exact htrimmed _

namespace Registry.Flush

variable {r other : Registry}

/-- A flush registry stays so with one more flush entry. -/
theorem put (h : r.Flush) {table v : String} (hentry : FlushEntry (table, v)) :
    Registry.Flush { r with tables := r.tables.put table v } :=
  fun entry hmem => (Entries.mem_put hmem).elim (h entry) fun heq => heq ▸ hentry

/-- A collection keeps the variable it has, or gets a generated one. -/
theorem registerTable [Naming] (h : r.Flush) (table : String) {asName : Option String}
    (hne : ∀ v ∈ asName, v ≠ "") (hname : ∀ v ∈ asName, Text.Flush v.toList) :
    (r.registerTable table asName).2.Flush := by
  refine h.put ?_
  cases asName with
  | some v => exact ⟨hne v rfl, .inr (hname v rfl)⟩
  | none =>
      change FlushEntry (table, (r.tables.get? table).getD (Alias.documentVariable table))
      cases hknown : r.tables.get? table with
      | none =>
          exact ⟨Alias.documentVariable_ne_empty table,
            .inr (Alias.solid_documentVariable table).flush⟩
      | some v => exact h _ (Entries.mem_of_get? hknown)

theorem importTables (h : r.Flush) (hother : other.Flush) : (r.importTables other).Flush :=
  fun entry hmem => (mem_imported hmem).elim (h entry) (hother entry)

end Registry.Flush

namespace Builder

variable {b w query : Builder}

namespace Flush

/-- Whether a builder is flush depends on its frame alone. -/
theorem of_frame (h : b.Flush) (hframe : w.frame = b.frame) : w.Flush := by
  have htables : w.aliases.tables = b.aliases.tables :=
    unchanged_of_frame hframe (fun c => c.aliases.tables) fun _ => rfl
  have hsource : w.source = b.source := unchanged_of_frame hframe Clauses.source fun _ => rfl
  refine ⟨?_, fun name docVar hname => h.source name docVar (hsource ▸ hname)⟩
  unfold Registry.Flush
  rw [htables]
  exact h.aliases

theorem empty (id : Nat) : Builder.Flush (Clauses.empty id) := ⟨nofun, nofun⟩

/-- A collection that is registered is flush, and so is what it is registered in. -/
theorem register [Naming] (h : b.Flush) (table : String) :
    Text.Flush (b.register table).1.toList ∧ (b.register table).2.2.Flush := by
  obtain ⟨hname, hasName⟩ := flush_tableAndAlias table
  have haliases :=
    h.aliases.registerTable (tableAndAlias table).1 (tableAndAlias_ne_empty table) hasName
  exact ⟨hname, ⟨haliases, h.source⟩⟩

/-- The variable of a sub-query is registered under itself. -/
theorem registerQuery [Naming] (h : b.Flush) (query : Builder) (asName : String) :
    (b.registerQuery query asName).2.Flush := by
  unfold Builder.registerQuery
  by_cases hempty : asName.isEmpty = true
  · rw [if_pos hempty]
    exact ⟨h.aliases.put
      ⟨by simp [Registry.variableFor, Registry.subQueryVariable], .inl rfl⟩, h.source⟩
  · rw [if_neg hempty]
    exact ⟨h.aliases.put ⟨fun hnone => hempty (String.isEmpty_iff.mpr hnone), .inl rfl⟩, h.source⟩

/-- A collection as the source leaves a builder flush. -/
theorem fromCollection [Naming] (h : b.Flush) (table : String) :
    (b.fromCollection table).Flush := by
  obtain ⟨hname, haliases, -⟩ := h.register table
  refine ⟨haliases, fun name docVar hsource => ?_⟩
  obtain ⟨rfl, -⟩ := Source.collection.inj (Option.some.inj hsource)
  exact hname

theorem fromView [Naming] (h : b.Flush) (view : String) : (b.fromView view).Flush :=
  ⟨(h.register view).2.aliases, nofun⟩

/-- A sub-query as the source leaves a builder flush. -/
theorem fromQuery [Naming] (h : b.Flush) (sub : SubQuery) (asName : String) :
    (b.fromQuery sub asName).Always Builder.Flush := by
  refine always_unlessFailedM h ((SameClauses.adopt b sub .source).bind fun r hr => always_pure ?_)
  exact ⟨((h.of_frame hr.frame).registerQuery r.1 asName).aliases, nofun⟩

/-- A sub-query knows the collections around it. -/
theorem forSubQuery (h : b.Flush) : b.forSubQuery.Always Builder.Flush :=
  fun next => ⟨(empty next).aliases.importTables h.aliases, nofun⟩

/-- A collection is copied with its name. -/
theorem of_map {α : Type} {f : Query → α} (h : b.Flush)
    (htables : w.aliases.tables = b.aliases.tables)
    (hsource : w.source.map (Source.map f) = b.source.map (Source.map f)) : w.Flush := by
  refine ⟨?_, fun name docVar hname => h.source name docVar ?_⟩
  · unfold Registry.Flush
    rw [htables]
    exact h.aliases
  · rw [hname] at hsource
    obtain ⟨s, hs, heq⟩ := Option.map_eq_some_iff.mp hsource.symm
    rw [hs]
    cases s <;> cases heq
    rfl

/-- A copy of a flush builder is flush. -/
theorem copyOf (h : b.Flush) : b.copyOf.Always Builder.Flush := by
  intro next
  have hcopy := b.compiled_copyOf next
  have htables : (b.copyOf next).1.aliases.tables = b.aliases.tables :=
    congrArg (fun c => c.aliases.tables) hcopy
  exact h.of_map htables (congrArg Clauses.source hcopy)

/-- The builder for a group of conditions is flush. -/
theorem forNested (h : b.Flush) : b.forNested.Always Builder.Flush := by
  have hsource : (runSource (b.source.map (Source.map Query.copyOf))).Always fun source =>
      source.map (Source.map fun _ => ()) = b.source.map (Source.map fun _ => ()) :=
    always_runSource b.source fun _ _ _ => rfl
  exact always_true.bind fun query _ => hsource.map fun source heq => h.of_map rfl heq

/-- A joined query iterates over the collection that was registered for it. -/
theorem openJoin [Naming] (h : b.Flush) (table : String) :
    ((b.register table).2.2.forSubQuery).Always fun joined =>
      Builder.Flush { joined with
        source := some (.collection (b.register table).1 (b.register table).2.1) } := by
  obtain ⟨hname, hregistered⟩ := h.register table
  refine hregistered.forSubQuery.mono fun joined hjoined => ⟨hjoined.aliases, ?_⟩
  intro name docVar hsource
  obtain ⟨rfl, -⟩ := Source.collection.inj (Option.some.inj hsource)
  exact hname

/-- Adding a join leaves a builder flush. -/
theorem pushJoin (h : b.Flush) (kind : JoinKind) (joined : Builder) :
    (b.pushJoin kind joined).Flush := by
  have habsorbed := h.of_frame (SameClauses.absorb b joined .join).frame
  unfold Builder.pushJoin
  generalize b.absorb joined .join = w at habsorbed ⊢
  exact ⟨habsorbed.aliases, habsorbed.source⟩

/-- A join with a collection leaves a builder flush. -/
theorem joinWith [Naming] (h : b.Flush) (kind : JoinKind) (table : String) (restrict : Action) :
    (b.joinWith kind table restrict).Always Builder.Flush :=
  always_unlessFailedM h (always_true.bind fun _ _ => always_true.bind fun joined _ =>
    always_pure ((h.register table).2.pushJoin kind joined))

/-- A join with a sub-query leaves a builder flush. -/
theorem joinQuery [Naming] (h : b.Flush) (kind : JoinKind) (sub : SubQuery) (asName first : String)
    (operator : Except Error Operator) (second : String) :
    (b.joinQuery kind sub asName first operator second).Always Builder.Flush := by
  refine always_unlessFailedM h ((SameClauses.adopt b sub .join).bind fun r hr => ?_)
  have hregistered := (h.of_frame hr.frame).registerQuery r.1 asName
  exact always_true.bind fun joined _ => always_pure (hregistered.pushJoin kind _)

/-- A union brings in the collections of its branch, which is not renamed outside of a loop. -/
theorem union [Naming] (h : b.Flush) (all : Bool) {sub : SubQuery} (hsub : sub.Flush) :
    (b.union all sub).Always Builder.Flush := by
  have hgiven : (b.subBuilder sub).Always Builder.Flush := by
    cases hsub with
    | finished hq => exact always_pure ⟨hq.aliases.importTables h.aliases, hq.source⟩
    | closure hmake => exact h.forSubQuery.bind fun _ hq => hmake _ hq
  refine always_unlessFailedM h (Always.bind (p := fun r => r.1.Flush ∧ b.SameClauses r.2) ?_ ?_)
  · exact hgiven.map fun query hq => ⟨hq, SameClauses.absorb b query .union⟩
  · rintro ⟨query, w⟩ ⟨hq, hw⟩
    have hown := h.of_frame hw.frame
    exact always_pure
      ⟨hown.aliases.importTables (hq.aliases.importTables hown.aliases), hown.source⟩

/-- A search leaves a builder flush. -/
theorem fullTextSearch (h : b.Flush) (fields : List (Selector Query)) (text : Value)
    (analyzer : Option String) : (b.fullTextSearch fields text analyzer).Flush := by
  refine of_fullTextSearch h (h.of_frame rfl) (h.of_frame rfl) ?_
  rintro _ _ rfl rfl - -
  have hbound := h.of_frame ((SameClauses.bindValue b text .search).trans
    (SameClauses.bindValue _ (.string (analyzer.getD defaultAnalyzer)) .search)).frame
  exact ⟨hbound.aliases, hbound.source⟩

end Flush

end Builder

open Builder

/-- A sub-query argument is flush if its script makes flush builders. -/
theorem SubArgument.flush_evaluate {b : Builder} {x : SubArgument Action}
    (h : MakesFlush x.script) (hb : b.Flush) : (x.evaluate b).Always SubQuery.Flush := by
  cases x with
  | finished subject =>
      cases subject with
      | new script =>
          have hbuild : (do script (← Builder.fresh) : Supply Builder).Always Builder.Flush :=
            Always.bind (p := Builder.Flush) (fun next => .empty next) h
          exact hbuild.map fun _ hq => .finished hq
      | copy script => exact (hb.copyOf.bind h).map fun _ hq => .finished hq
  | closure script => exact always_pure (.closure h)

/-- **One call keeps names flush**: whatever a flush builder is made into is flush, if the
sub-queries in the call are. -/
theorem Call.flush_apply [Naming] {b : Builder} (hb : b.Flush) {call : Call Action}
    (h : ∀ script ∈ call.scripts, MakesFlush script) : (call.apply b).Always Builder.Flush := by
  by_cases hframed : call.Framed
  · exact (Call.frame_apply b hframed).mono fun _ hw => hb.of_frame hw
  cases call with
  | fromCollection table => exact always_pure (hb.fromCollection table)
  | fromView view => exact always_pure (hb.fromView view)
  | fromQuery sub asName => exact always_true.bind fun sub _ => hb.fromQuery sub asName
  | join kind table first operator second =>
      exact hb.joinWith kind table fun joined =>
        pure (joined.compareColumns .and first operator.operator second)
  | joinWith kind table calls =>
      exact hb.joinWith kind table fun joined => JoinCall.applyAll joined calls
  | crossJoin table => exact hb.joinWith .cross table fun joined => pure joined
  | joinQuery kind sub asName first operator second =>
      exact always_true.bind fun sub _ => hb.joinQuery kind sub asName first _ second
  | union all sub =>
      exact (SubArgument.flush_evaluate (h _ List.mem_cons_self) hb).bind fun _ hsub =>
        hb.union all hsub
  | fullTextSearch fields text analyzer =>
      exact always_true.bind fun fields _ => always_pure (hb.fullTextSearch fields text analyzer)
  | copy => exact hb.copyOf
  | forSubQuery => exact hb.forSubQuery
  | forNested => exact hb.forNested
  | restart table => exact fun next => (Flush.empty next).fromCollection table
  | _ => exact (hframed trivial).elim

/-! ## The builders of a program -/

namespace World

variable {n : Nat} {L : Multiset Builder} {W W' : World} {make : Supply Builder}

/-- A builder that comes in is flush. -/
theorem flush_grow (h : ∀ b ∈ W.live, b.Flush) (hmake : make.Always Builder.Flush) :
    ∀ b ∈ (W.grow make).live, b.Flush :=
  Multiset.forall_mem_cons.mpr ⟨hmake W.next, h⟩

/-- One step of a program leaves all builders flush. -/
theorem Advance.flush [Naming] (next : W.Advance W') (h : ∀ b ∈ W.live, b.Flush) :
    ∀ b ∈ W'.live, b.Flush := by
  cases next with
  | setBindings b values category =>
      obtain ⟨hb, hrest⟩ := Multiset.forall_mem_cons.mp h
      exact Multiset.forall_mem_cons.mpr ⟨hb.of_frame rfl, hrest⟩
  | step hstep =>
      cases hstep with
      | new => exact flush_grow h fun next => .empty next
      | copy hb => exact flush_grow h (h _ hb).copyOf
      | forSubQuery hb => exact flush_grow h (h _ hb).forSubQuery
      | forNested hb => exact flush_grow h (h _ hb).forNested
      | openJoin hb table =>
          exact flush_grow h (((h _ hb).openJoin table).map fun _ hjoined => hjoined)
      | @call n L b call qs _ hscripts =>
          obtain ⟨hb, hothers⟩ := Multiset.forall_mem_cons.mp h
          have hqs : ∀ q ∈ qs, q.Flush := fun q hq =>
            hothers q (Multiset.mem_add.mpr (.inl (Multiset.mem_coe.mpr hq)))
          refine flush_grow (fun q hq => hothers q (Multiset.mem_add.mpr (.inr hq)))
            (Call.flush_apply hb fun script hscript => ?_)
          rw [hscripts] at hscript
          obtain ⟨q, hq, rfl⟩ := List.mem_map.mp hscript
          exact fun _ _ _ => hqs q hq
      | join b joined kind table =>
          obtain ⟨hb, hothers⟩ := Multiset.forall_mem_cons.mp h
          exact flush_grow (Multiset.forall_mem_cons.mp hothers).2 (hb.joinWith kind table _)
      | merge b other category =>
          obtain ⟨hb, hothers⟩ := Multiset.forall_mem_cons.mp h
          have hmerged := hb.of_frame (b.narrows_mergeBindings other category).frame
          exact Multiset.forall_mem_cons.mpr ⟨hmerged, hothers⟩
      | compile _ e => exact fun b hb => h b (Multiset.mem_add.mpr (.inr hb))
      | drop b => exact (Multiset.forall_mem_cons.mp h).2

/-- Every builder of a program is flush. -/
theorem Reached.flush [Naming] (h : W.Reached) : ∀ b ∈ W.live, b.Flush :=
  Reached.induction (motive := fun W => ∀ b ∈ W.live, b.Flush) (fun _ b hb => by cases hb)
    Advance.flush h

end World

/-- **Every spelling of a column resolves alike.** For every builder that a program can come to,
over a collection with a variable: a path of attributes is written as the same text on its own,
behind the name of the collection and behind the variable, with arrows for any of the dots. The text
is the variable with the quoted attributes behind it, where a leading `id` is the key. The path may
have any number of attributes, as long as none of the names on the way means anything else. -/
theorem every_spelling_resolves_alike [Naming] {W : World} (hreached : W.Reached) {b : Builder}
    (hlive : b ∈ W.live) {name docVar path : String}
    (hsource : b.source = some (.collection name docVar))
    (haddresses : b.scope.Addresses name docVar path) {column spelled : String}
    (hcolumn : column ∈ [path, name ++ "." ++ path, docVar ++ "." ++ path])
    (hspelled : Text.Spells column.toList spelled.toList) :
    b.scope.resolve spelled =
      docVar ++ ("." ++ ".".intercalate (Column.attributeTexts (Scope.attributes path))) := by
  have hflush := hreached.flush b hlive
  have hname : Text.Flush name.toList := hflush.source name docVar hsource
  have hentry := hflush.aliases _ (Entries.mem_of_get? haddresses.registered)
  have hvariable : Text.Flush docVar.toList := by
    rcases hentry.flush with hsame | hvariable
    · obtain rfl : docVar = name := hsame
      exact hname
    · exact hvariable
  have hmain : b.scope.docVar = some docVar := by
    unfold Clauses.scope Clauses.docVar
    rw [hsource]
    rfl
  exact haddresses.resolve_eq hmain hentry.ne_empty hname hvariable hcolumn hspelled

/-- A program with one builder over a collection with a given variable. -/
def World.overUsers : World := ⟨1, fromCollection (Clauses.empty 0) "users as u" ::ₘ 0⟩

/-- A program with a builder over users can be come to. -/
theorem World.overUsers_reached : overUsers.Reached := by
  refine Reachable.reached ⟨0, ?_⟩
  have hnew : Step ⟨0, 0⟩ ⟨1, Clauses.empty 0 ::ₘ 0⟩ := .new ⟨0, 0⟩
  have hcall : Step ⟨1, Clauses.empty 0 ::ₘ 0⟩ overUsers :=
    @Step.call _ 1 0 (Clauses.empty 0) (.fromCollection "users as u") [] trivial rfl
  exact (Relation.ReflTransGen.single hnew).tail hcall

/-- The key of users is found with an arrow in front. -/
theorem key_of_users_spelled_with_arrow :
    World.overUsers.Reached ∧
      (fromCollection (Clauses.empty 0) "users as u").scope.resolve "u->id.lang" =
        "u.`_key`.`lang`" := by
  have hread : tableAndAlias "users as u" = ("users", some "u") := by decide +kernel
  have hbuilder : (fromCollection (Clauses.empty 0) "users as u" : Builder) =
      { Clauses.empty 0 with
        aliases := { Registry.empty with tables := [("users", "u")] }
        source := some (.collection "users" "u") } := by
    simp only [fromCollection, register, hread]
    rfl
  have haddresses : (fromCollection (Clauses.empty 0) "users as u").scope.Addresses
      "users" "u" "id.lang" := by
    rw [hbuilder]
    exact {
      registered := rfl
      shared := fun v hv => by cases hv
      undivided := by decide
      undefined := ⟨rfl, rfl, fun _ _ => rfl⟩
      unreferenced := fun _ _ => rfl
      trimmed := ⟨by decide, by decide⟩
      unprojected := fun _ => rfl
      unregistered := by decide +kernel }
  have hlive : fromCollection (Clauses.empty 0) "users as u" ∈ World.overUsers.live :=
    Multiset.mem_cons_self (fromCollection (Clauses.empty 0) "users as u") 0
  have hcolumn :
    "u.id.lang" ∈ ["id.lang", "users" ++ "." ++ "id.lang", "u" ++ "." ++ "id.lang"] := by
    decide
  have hspelled : Text.Spells "u.id.lang".toList "u->id.lang".toList :=
    .keep 'u' (.arrow (.refl "id.lang".toList))
  refine ⟨World.overUsers_reached, ?_⟩
  have htext :
    "u" ++ ("." ++ ".".intercalate (Column.attributeTexts (Scope.attributes "id.lang"))) =
      "u.`_key`.`lang`" := by
    decide +kernel
  rw [← htext]
  exact every_spelling_resolves_alike World.overUsers_reached hlive
    (congrArg Clauses.source hbuilder) haddresses hcolumn hspelled

end AqlBuilder
