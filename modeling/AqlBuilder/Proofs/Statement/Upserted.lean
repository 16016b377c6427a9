import AqlBuilder.Alias.Rules
import AqlBuilder.Proofs.Aql.Ticked
import AqlBuilder.Proofs.Json.Quoted
import AqlBuilder.Proofs.Statement.Copied
import AqlBuilder.Statement.Write

/-!
# The attributes in an upsert

An upsert names attributes twice: the ones by which documents are told apart, and the ones that are
updated, which are the other attributes of the first document unless they are listed. Each of them
is the key of a field in an object, and its value is the attribute of the row between backticks. The
keys are quoted safely. The backticks do not hold what stands behind a bracket, nor the empty name
and the star, and a backslash in a name is taken for one that makes the next character literal.

- `Builder.rowFields` are the fields of such an object.
- `Aql.objectKey_quoted`: a key is a bare name or a quoted string.
- `Builder.yields_upserted`: the text of an upsert.
- `Builder.upserted_attributes` is the law of its attributes.
-/

namespace AqlBuilder

open Outcome

/-- A key of an object is a bare name, or a string that is read as the name. -/
theorem Aql.objectKey_quoted (name : String) :
    (isBare name = true ∧ objectKey name = name) ∨
      (objectKey name = Json.quote name ∧ Json.read? (objectKey name) = some (.string name)) := by
  unfold objectKey
  split_ifs with hbare
  · exact Or.inl ⟨hbare, rfl⟩
  · exact Or.inr ⟨rfl, Json.read?_quote name⟩

namespace Builder

/-- Fields of an object with attributes of the iterated row. -/
def rowFields (attributes : List String) : String :=
  ", ".intercalate (attributes.map fun a =>
    Aql.objectKey a ++ ": doc." ++ Column.attributeText a.toList)

/-- What is taken from a row is an object with the attributes of the row. -/
theorem fromRow_eq (attributes : List String) :
    fromRow attributes = "\x7b" ++ rowFields attributes ++ "\x7d" := by
  have hfield : ∀ a : String, Aql.objectKey a ++ ": " ++ ("doc." ++ Column.attributeText a.toList) =
      Aql.objectKey a ++ ": doc." ++ Column.attributeText a.toList := by
    intro a
    have hcut : ": doc." = ": " ++ "doc." := by decide
    rw [hcut]
    simp only [String.append_assoc]
  unfold fromRow rowFields
  rw [Aql.objectLiteral_eq, List.map_map]
  simp only [Function.comp_def, hfield]

/-- The attributes that an upsert updates are those of the first document that do not tell documents
apart. -/
theorem mem_updatedByDefault_iff {documents : List Document} {unique : List String} {a : String} :
    a ∈ updatedByDefault documents unique ↔
      a ∉ unique ∧ ∃ first ∈ documents.head?, ∃ name ∈ Entries.keys first,
        storedAttribute name = a := by
  unfold updatedByDefault
  rw [List.mem_filter, List.mem_map, and_comm]
  refine and_congr (by simp) ?_
  cases documents with
  | nil => simp
  | cons first rest => simp

/-- The text of an upsert: the documents are one bound value, and of their attributes it has those
that are updated. -/
theorem yields_upserted (b : Builder) (rows : List Row) (uniqueBy : List String) :
    (b.upsertStatement rows uniqueBy none).Yields fun c => ∃ documents name collection,
      Row.documents rows = .ok documents ∧ b.target = .ok collection ∧
      c.aql = "FOR doc IN @" ++ name ++ " UPSERT \x7b" ++
        rowFields (uniqueBy.map storedAttribute) ++ "\x7d INSERT doc UPDATE \x7b" ++
        rowFields (updatedByDefault documents (uniqueBy.map storedAttribute)) ++ "\x7d IN " ++
        collection := by
  refine yields_checked b fun _ => ?_
  split
  · exact yields_fail _
  refine (yields_ofExcept fun documents hdocuments => hdocuments).bind
    fun documents hdocuments => ?_
  split
  · exact yields_fail _
  refine yields_onCopy fun w hw => ?_
  refine (yields_ofExcept fun collection htarget =>
    (target_of_compiled hw ▸ htarget : b.target = .ok collection)).bind
      fun collection htarget => yields_pure ?_
  refine ⟨documents, w.bindings.nextName .upsert, collection, hdocuments, htarget, ?_⟩
  have hloop : "FOR doc IN @" = "FOR " ++ "doc" ++ " IN " ++ "@" := by decide
  have hupsert : " UPSERT \x7b" = " UPSERT " ++ "\x7b" := by decide
  have hupdate :
    "\x7d INSERT doc UPDATE \x7b" = "\x7d" ++ " INSERT doc UPDATE " ++ "\x7b" := by decide
  have hin : "\x7d IN " = "\x7d" ++ " IN " := by decide
  change Aql.loop "doc" ("@" ++ w.bindings.nextName .upsert) ++ " UPSERT " ++ fromRow _ ++
    " INSERT doc UPDATE " ++ fromRow _ ++ " IN " ++ collection = _
  rw [fromRow_eq, fromRow_eq, hloop, hupsert, hupdate, hin]
  simp only [Aql.loop, String.append_assoc]

/-- **Which attributes of upserted documents are quoted.**  The text of an upsert without a list of
updates has the attributes that tell documents apart and the other attributes of the first document,
each as the key of a field and as an attribute of the row. A key is a bare name or a string that is
read as the name. The attribute of the row is read back as the name, whatever follows it, just if
the name is not empty, no star, and has neither a bracket nor a backslash in it; what stands behind
a bracket stands in the statement as it is. -/
theorem upserted_attributes (b : Builder) (rows : List Row) (uniqueBy : List String) :
    ((b.upsertStatement rows uniqueBy none).Yields fun c => ∃ documents name collection,
      Row.documents rows = .ok documents ∧ b.target = .ok collection ∧
      c.aql = "FOR doc IN @" ++ name ++ " UPSERT \x7b" ++
        rowFields (uniqueBy.map storedAttribute) ++ "\x7d INSERT doc UPDATE \x7b" ++
        rowFields (updatedByDefault documents (uniqueBy.map storedAttribute)) ++ "\x7d IN " ++
        collection) ∧
    (∀ (documents : List Document) (unique : List String) (a : String),
      a ∈ updatedByDefault documents unique ↔
        a ∉ unique ∧ ∃ first ∈ documents.head?, ∃ name ∈ Entries.keys first,
          storedAttribute name = a) ∧
    (∀ a : String, (Aql.isBare a = true ∧ Aql.objectKey a = a) ∨
      (Aql.objectKey a = Json.quote a ∧ Json.read? (Aql.objectKey a) = some (.string a))) ∧
    (∀ (a : String) (rest : List Char),
      Aql.readTicked ((Column.attributeText a.toList).toList ++ rest) = some (a.toList, rest) ↔
        a ≠ "" ∧ a ≠ "*" ∧ '[' ∉ a.toList ∧ '\\' ∉ a.toList) ∧
    ∀ name behind : List Char, '[' ∉ name →
      Column.attributeText (name ++ '[' :: behind) =
        String.ofList (if name = [] then [] else Aql.ticked name) ++
          String.ofList ('[' :: behind) := by
  refine ⟨yields_upserted b rows uniqueBy, fun _ _ _ => mem_updatedByDefault_iff,
    Aql.objectKey_quoted, ?_, ?_⟩
  · intro a rest
    have hempty : a ≠ "" ↔ a.toList ≠ [] := not_congr String.toList_eq_nil_iff.symm
    have hstar : a ≠ "*" ↔ a.toList ≠ ['*'] := not_congr String.toList_inj.symm
    rw [Column.attributeText, String.toList_ofList, Column.readTicked_attribute_iff, hempty, hstar]
  · intro name behind hname
    rw [Column.attributeText, Column.tickedAttribute_bracket hname, String.ofList_append]

/-- All houses. -/
def houses : Builder := fromCollection (Clauses.empty 1) "houses"

/-- A house with two attributes, the second one with a bracket in its name. -/
def striped : List Row :=
  [.attributes [("id", .string "Baratheon"), ("colors[0], ruling: true", .string "black")]]

/-- What is behind the bracket stands outside of the backticks and is one more field of the update,
and reading the backticks gives another name. A backslash at the end of a name takes the closing
backtick away. -/
theorem bracket_left_outside :
    (houses.upsertStatement striped ["id"] none 2).1.toOption.map Compiled.aql =
      some ("FOR doc IN @1_upsert_1 UPSERT \x7b_key: doc.\x60_key\x60\x7d INSERT doc UPDATE "
        ++ "\x7b\"colors[0], ruling: true\": doc.\x60colors\x60[0], ruling: true\x7d IN houses") ∧
    Aql.readTicked "\x60colors\x60[0], ruling: true\x7d IN houses".toList =
      some ("colors".toList, "[0], ruling: true\x7d IN houses".toList) ∧
    Aql.readTicked ((Column.attributeText "motto\\".toList).toList ++ "\x7d IN houses".toList) =
      none := by
  decide +kernel

/-- The key of a house is quoted as a whole, the attribute with a bracket is not. -/
theorem key_quoted_color_not :
    (∀ rest, Aql.readTicked ((Column.attributeText "_key".toList).toList ++ rest) =
      some ("_key".toList, rest)) ∧
    (∀ rest,
      Aql.readTicked ((Column.attributeText "colors[0], ruling: true".toList).toList ++ rest) ≠
      some ("colors[0], ruling: true".toList, rest)) ∧
    Column.attributeText ("colors".toList ++ '[' :: "0], ruling: true".toList) =
      String.ofList (Aql.ticked "colors".toList) ++
        String.ofList ('[' :: "0], ruling: true".toList) := by
  obtain ⟨-, -, -, hread, hbracket⟩ := upserted_attributes houses striped ["id"]
  refine ⟨fun rest => (hread "_key" rest).mpr (by decide), fun rest h => ?_,
    hbracket "colors".toList "0], ruling: true".toList (by decide)⟩
  exact absurd ((hread "colors[0], ruling: true" rest).mp h).2.2.1 (by decide)

end Builder

end AqlBuilder
