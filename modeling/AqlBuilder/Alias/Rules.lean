import AqlBuilder.Alias.Registry
import AqlBuilder.Proofs.Text.Compact
import AqlBuilder.Text.Singular

/-!
# Document variables by rules

The program names a document by the singular of its collection's name in camel case. The rules for
nouns decide about the names and about nothing else: whatever they do, the camel case leaves neither
blanks nor marks in a name.
-/

namespace AqlBuilder.Alias

/-- The singular of a name in camel case. -/
def singularElement (table : String) : String :=
  String.ofList (Text.camelCase (Text.singular table.toList))

/-- The names of the program. -/
instance singularNaming : Naming where
  element := singularElement
  clean table c hc := by
    rw [singularElement, String.toList_ofList] at hc
    have hcompact := Text.compact_camelCase (Text.singular table.toList)
    exact ⟨fun hmark => hcompact.mark_notMem (hmark ▸ hc), hcompact.isBlank_eq_false hc⟩

/-- One of the characters. -/
theorem documentVariable_characters : documentVariable "characters" = "characterDoc" := by
  decide +kernel

end AqlBuilder.Alias
