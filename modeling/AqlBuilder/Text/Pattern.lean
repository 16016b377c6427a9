import AqlBuilder.Text.Case

/-!
# Patterns without repetition

A small pattern language for the endings of nouns: literal letters, character sets, sequence,
choice, capture groups and the anchors for the start, the end and a word boundary. Patterns have no
repetition, so a match is found by listing all of them in order of preference.

Letters match in either case. Three letters have a second capital or small form in Unicode, and
those match as well: the long s, the Kelvin sign and the accented e.
-/

namespace AqlBuilder.Text

/-- A pattern over characters. -/
inductive Pattern
  /-- One given letter, in either case. -/
  | letter (c : Char)
  /-- One of the given letters, in either case. -/
  | oneOf (letters : List Char)
  /-- One character other than the given letters. -/
  | noneOf (letters : List Char)
  /-- One character that does not belong to a word. -/
  | nonWord
  /-- Nothing, at the start of the text. -/
  | start
  /-- Nothing, at the end of the text. -/
  | finish
  /-- Nothing, where a word begins or ends. -/
  | boundary
  /-- Nothing. -/
  | empty
  /-- One pattern after another. -/
  | sequence (first second : Pattern)
  /-- The first pattern, or else the second. -/
  | either (first second : Pattern)
  /-- A pattern whose text is remembered under a number. -/
  | group (number : Nat) (inner : Pattern)

namespace Pattern

/-- The letters of a text one after another. -/
def word (text : String) : Pattern :=
  text.toList.foldr (fun c rest => .sequence (.letter c) rest) .empty

/-- One of the patterns, the earlier ones preferred. -/
def anyOf : List Pattern → Pattern
  | [] => .empty
  | [p] => p
  | p :: rest => .either p (anyOf rest)

/-- One of the words, the earlier ones preferred. -/
def anyWord (words : List String) : Pattern := anyOf (words.map word)

/-- The patterns one after another. -/
def all : List Pattern → Pattern
  | [] => .empty
  | p :: rest => .sequence p (all rest)

/-- The pattern, or nothing. -/
def optional (p : Pattern) : Pattern := .either p .empty

/-- A place in a text: what was read, in reverse, what is left, and the groups read so far. -/
structure Place where
  before : List Char
  after : List Char
  groups : List (Nat × List Char)

/-- Letters are compared by their simple case folding. -/
def fold (c : Char) : Char :=
  if c = '\u017f' then 's' else if c = '\u212a' then 'k' else if c = 'É' then 'é' else c.toLower

/-- Whether a word begins or ends at the place. -/
def Place.atBoundary (place : Place) : Bool :=
  (place.before.head?.map isWordChar).getD false != (place.after.head?.map isWordChar).getD false

/-- Read one accepted character. -/
def Place.step (accept : Char → Bool) (place : Place) : List Place :=
  match place.after with
  | c :: rest =>
    if accept c then [{ place with before := c :: place.before, after := rest }] else []
  | [] => []

/-- The text between an earlier place and this one. -/
def Place.since (place earlier : Place) : List Char :=
  (place.before.take (place.before.length - earlier.before.length)).reverse

/-- Every way to match at a place, in order of preference. -/
def places : Pattern → Place → List Place
  | .letter l, place => place.step fun c => fold c == fold l
  | .oneOf ls, place => place.step fun c => ls.any fun l => fold c == fold l
  | .noneOf ls, place => place.step fun c => !ls.any fun l => fold c == fold l
  | .nonWord, place => place.step fun c => !isWordChar c
  | .start, place => if place.before.isEmpty then [place] else []
  | .finish, place => if place.after.isEmpty then [place] else []
  | .boundary, place => if place.atBoundary then [place] else []
  | .empty, place => [place]
  | .sequence p q, place => (p.places place).flatMap q.places
  | .either p q, place => p.places place ++ q.places place
  | .group n p, place =>
    (p.places place).map fun reached =>
      { reached with groups := reached.groups ++ [(n, reached.since place)] }

/-- A match: the text before it, the matched text, the text after it and the groups. -/
structure Match where
  before : List Char
  matched : List Char
  after : List Char
  groups : List (Nat × List Char)

/-- The leftmost match at or after a place. -/
def findFrom (p : Pattern) (before : List Char) : List Char → Option Match
  | [] => matchAt []
  | c :: rest => (matchAt (c :: rest)).or (findFrom p (c :: before) rest)
where
  /-- The preferred match that starts exactly here. -/
  matchAt (after : List Char) : Option Match :=
    let origin : Place := ⟨before, after, []⟩
    (p.places origin).head?.map fun reached =>
      ⟨before.reverse, reached.since origin, reached.after, reached.groups⟩

/-- The leftmost match in a text. -/
def find? (p : Pattern) (text : List Char) : Option Match := p.findFrom [] text

end Pattern

end AqlBuilder.Text
