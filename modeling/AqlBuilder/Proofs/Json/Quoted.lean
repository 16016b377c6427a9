import AqlBuilder.Json.Printer
import AqlBuilder.Json.Reader
import Mathlib.Tactic.SplitIfs

/-!
# Quoted strings are read back

A quoted string is a code for the text: every character is written as one unit, and the reader takes
the units off one by one, because no unit but the closing mark begins with a bare quotation mark and
every escape tells its own length. The characters below the blank that have no letter of their own
are written with four hexadecimal digits, far below the surrogates, so the reader gives them back as
they are.

- `Json.takeUnits?_quoteChar`: the reader takes one character off as one unit.
- `Json.takeUnits?_quoted`: and the whole text up to the closing mark.
- `Json.read?_quote`: a quoted string is read as the string that was quoted.
- `Json.quote_injective`: so different strings are quoted differently.
-/

namespace AqlBuilder.Json

variable (rest : List Char)

theorem hexDigit?_hexDigit : ∀ n, n < 16 → hexDigit? (hexDigit n) = some n := by decide

/-- A character that is written as it is, is read as it is. -/
theorem takeUnits?_plain {c : Char}
    (hmark : c ≠ '"') (hslash : c ≠ '\\') (hlow : ¬ c.toNat < 0x20) :
    takeUnits? (c :: rest) = (takeUnits? rest).map (Prod.map (.char c :: ·) id) := by
  rw [takeUnits?.eq_5 c rest hmark (fun _ _ _ _ _ h => absurd h hslash)
    fun _ _ h => absurd h hslash]
  simp only [hlow, hslash, decide_false, Bool.or_false, Bool.false_eq_true, if_false]
  cases takeUnits? rest <;> rfl

/-- A letter behind a backslash is read as the character that it stands for. -/
theorem takeUnits?_letter {letter c : Char} (hletter : escapedChar? letter = some c) :
    takeUnits? ('\\' :: letter :: rest) = (takeUnits? rest).map (Prod.map (.char c :: ·) id) := by
  have hu : letter ≠ 'u' := by
    rintro rfl
    cases hletter
  rw [takeUnits?.eq_4 letter rest fun _ _ _ _ _ h => absurd h hu, hletter]
  cases takeUnits? rest <;> rfl

/-- Four hexadecimal digits are read as the number that they write. -/
theorem takeUnits?_code {n : Nat} (hn : n < 0x20) :
    takeUnits? ('\\' :: 'u' :: '0' :: '0' :: hexDigit (n / 16) :: hexDigit (n % 16) :: rest) =
      (takeUnits? rest).map (Prod.map (.code n :: ·) id) := by
  have hzero : hexDigit? '0' = some 0 := by decide
  have hsixteen := hexDigit?_hexDigit (n / 16) (by omega)
  have hone := hexDigit?_hexDigit (n % 16) (by omega)
  have hn : 0 * 4096 + 0 * 256 + n / 16 * 16 + n % 16 = n := by omega
  rw [takeUnits?.eq_3, hzero, hsixteen, hone]
  simp only [Option.bind_eq_bind, Option.bind_some, hn]
  cases takeUnits? rest <;> rfl

/-- The unit that a quoted character is read as: the characters below the blank that have no letter
of their own are read as numbers. -/
def unitOf (c : Char) : StringUnit :=
  if c.toNat < 0x20 ∧ c ∉ ['\x08', '\x0c', '\n', '\r', '\t'] then .code c.toNat else .char c

/-- The reader takes a quoted character off as one unit. -/
theorem takeUnits?_quoteChar (c : Char) :
    takeUnits? (quoteChar c ++ rest) = (takeUnits? rest).map (Prod.map (unitOf c :: ·) id) := by
  unfold quoteChar
  split_ifs with hmark hslash hb hf hn hr ht hlow
  · subst hmark
    exact takeUnits?_letter rest (by decide)
  · subst hslash
    exact takeUnits?_letter rest (by decide)
  · subst hb
    exact takeUnits?_letter rest (by decide)
  · subst hf
    exact takeUnits?_letter rest (by decide)
  · subst hn
    exact takeUnits?_letter rest (by decide)
  · subst hr
    exact takeUnits?_letter rest (by decide)
  · subst ht
    exact takeUnits?_letter rest (by decide)
  · have hunit : unitOf c = .code c.toNat := if_pos ⟨hlow, by simp [hb, hf, hn, hr, ht]⟩
    rw [hunit]
    exact takeUnits?_code rest hlow
  · have hunit : unitOf c = .char c := if_neg fun h => hlow h.1
    rw [hunit]
    exact takeUnits?_plain rest hmark hslash hlow

/-- The reader takes a quoted text off up to its closing mark. -/
theorem takeUnits?_quoted (text : List Char) :
    takeUnits? (text.flatMap quoteChar ++ '"' :: rest) = some (text.map unitOf, rest) := by
  induction text with
  | nil => rfl
  | cons c text ih =>
      rw [List.flatMap_cons, List.append_assoc, takeUnits?_quoteChar, ih]
      rfl

/-- A number below the surrogates stands for its character, whatever comes next. -/
theorem unitChars?_code {n : Nat} (hn : n < 0xd800) (units : List StringUnit) :
    unitChars? (.code n :: units) = (unitChars? units).map (Char.ofNat n :: ·) := by
  have hlow : (decide (n < 0xd800) || decide (0xe000 ≤ n)) = true := by simp [hn]
  rw [unitChars?.eq_def]
  exact if_pos hlow

/-- The units of a quoted text are the text. -/
theorem unitChars?_unitOf (text : List Char) : unitChars? (text.map unitOf) = some text := by
  induction text with
  | nil => rfl
  | cons c text ih =>
      rw [List.map_cons, unitOf]
      split_ifs with hcode
      · have hlow : c.toNat < 0x20 := hcode.1
        rw [unitChars?_code (by omega), ih, Char.ofNat_toNat]
        rfl
      · rw [unitChars?, ih]
        rfl

/-- A quoted string is read as the string that was quoted. -/
theorem read?_quote (text : String) : read? (quote text) = some (.string text) := by
  have hchars : (quote text).toList = '"' :: (text.toList.flatMap quoteChar ++ '"' :: []) := by
    rw [quote, String.toList_ofList, List.cons_append]
  have hvalue : ∀ fuel, takeValue? (fuel + 1) (quote text).toList =
      some (.string (text.toList.map unitOf), []) := by
    intro fuel
    have hstart : ∀ chars, skipBlanks ('"' :: chars) = '"' :: chars := fun _ => rfl
    rw [hchars, takeValue?, hstart]
    change (takeUnits? _).map _ = _
    rw [takeUnits?_quoted]
    rfl
  have htree : Tree.read? (quote text) = some (.string (text.toList.map unitOf)) := by
    rw [Tree.read?]
    simp only [hvalue]
    rfl
  rw [read?, htree]
  simp [Tree.value?, unitText?, unitChars?_unitOf]

/-- Different strings are quoted differently. -/
theorem quote_injective : Function.Injective quote := by
  intro text text' h
  have hread : some (Json.string text) = some (Json.string text') := by
    rw [← read?_quote, h, read?_quote]
  exact Json.string.inj (Option.some.inj hread)

end AqlBuilder.Json
