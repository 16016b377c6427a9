import AqlBuilder.Text.Case
import AqlBuilder.Text.Split

/-!
# Camel case

A name is cut into words and the words are joined again, the first in small letters and the others
with a capital at the front. Words end at characters that are neither letters nor numbers, after a
small letter that is followed by a capital, and before a capital that stands between a capital and
a small letter, so that `HTTPRequest` is read as two words.
-/

namespace AqlBuilder.Text

/-- The case of the last letter seen in the current word. -/
inductive LetterCase
  | unknown
  | small
  | capital
  deriving DecidableEq

/-- The case after one more character; digits and other characters without case keep it. -/
def LetterCase.next (previous : LetterCase) (c : Char) : LetterCase :=
  if isLowercase c then .small else if isUppercase c then .capital else previous

/-- The words of a piece without separators. `word` holds the current word in reverse. -/
def wordsOfPiece (letterCase : LetterCase) (word : List Char) : List Char → List (List Char)
  | [] => if word.isEmpty then [] else [word.reverse]
  | [c] => [(c :: word).reverse]
  | c :: next :: rest =>
    if letterCase.next c = .small && isUppercase next then
      (c :: word).reverse :: wordsOfPiece .unknown [] (next :: rest)
    else if letterCase = .capital && isUppercase c && isLowercase next then
      word.reverse :: wordsOfPiece .unknown [c] (next :: rest)
    else
      wordsOfPiece (letterCase.next c) (c :: word) (next :: rest)

/-- The words of a name in any spelling. -/
def nameWords (name : List Char) : List (List Char) :=
  (splitBy (fun c => !isAlphanumeric c) name).flatMap (wordsOfPiece .unknown [])

/-- A word in small letters; a capital sigma is final at the end of the word only. -/
def lowerWord : List Char → List Char
  | [] => []
  | [c] => if c = 'Σ' then ['ς'] else lowerChar c
  | c :: rest => lowerChar c ++ lowerWord rest

/-- A word with a capital at the front and small letters after it. -/
def capitalWord : List Char → List Char
  | [] => []
  | c :: rest => upperChar c ++ lowerWord rest

/-- The words of a name joined in camel case. -/
def camelCase (name : List Char) : List Char :=
  match nameWords name with
  | [] => []
  | word :: words => lowerWord word ++ words.flatMap capitalWord

end AqlBuilder.Text
