import AqlBuilder.Text.Case
import AqlBuilder.Text.Pattern

/-!
# Singular nouns

The singular of an English noun, for naming the document of a collection after the collection.
Irregular nouns are looked up first, then the nouns without a plural; all others go through a list
of endings. The list is tried from its last entry to its first, so that later entries are the
exceptions to earlier ones, and of the chosen entry the leftmost match is replaced.

The result follows the spelling of the word: small letters, capitals, or a capital at the front.
-/

namespace AqlBuilder.Text

/-- Irregular nouns and pronouns with their plurals. -/
def irregularNouns : List (String × String) := [
  ("I", "we"), ("me", "us"), ("he", "they"), ("she", "they"), ("them", "them"),
  ("myself", "ourselves"), ("yourself", "yourselves"), ("itself", "themselves"),
  ("herself", "themselves"), ("himself", "themselves"), ("themself", "themselves"), ("is", "are"),
  ("was", "were"), ("has", "have"), ("this", "these"), ("that", "those"), ("my", "our"),
  ("its", "their"), ("his", "their"), ("her", "their"), ("echo", "echoes"), ("dingo", "dingoes"),
  ("volcano", "volcanoes"), ("tornado", "tornadoes"), ("torpedo", "torpedoes"),
  ("genus", "genera"), ("viscus", "viscera"), ("stigma", "stigmata"), ("stoma", "stomata"),
  ("dogma", "dogmata"), ("lemma", "lemmata"), ("schema", "schemata"), ("anathema", "anathemata"),
  ("ox", "oxen"), ("axe", "axes"), ("die", "dice"), ("yes", "yeses"), ("foot", "feet"),
  ("eave", "eaves"), ("goose", "geese"), ("tooth", "teeth"), ("quiz", "quizzes"),
  ("human", "humans"), ("proof", "proofs"), ("carve", "carves"), ("valve", "valves"),
  ("looey", "looies"), ("thief", "thieves"), ("groove", "grooves"), ("pickaxe", "pickaxes"),
  ("passerby", "passersby"), ("canvas", "canvases")]

/-- Nouns that are their own singular. -/
def uncountableNouns : List String := [
  "adulthood", "advice", "agenda", "aid", "aircraft", "alcohol", "ammo", "analytics", "anime",
  "athletics", "audio", "bison", "blood", "bream", "buffalo", "butter", "carp", "cash", "chassis",
  "chess", "clothing", "cod", "commerce", "cooperation", "corps", "debris", "diabetes",
  "digestion", "elk", "energy", "equipment", "excretion", "expertise", "firmware", "flounder",
  "fun", "gallows", "garbage", "graffiti", "hardware", "headquarters", "health", "herpes",
  "highjinks", "homework", "housework", "information", "jeans", "justice", "kudos", "labour",
  "literature", "machinery", "mackerel", "mail", "media", "mews", "moose", "music", "mud",
  "manga", "news", "only", "personnel", "pike", "plankton", "pliers", "police", "pollution",
  "premises", "rain", "research", "rice", "salmon", "scissors", "series", "sewage", "shambles",
  "shrimp", "software", "staff", "swine", "tennis", "traffic", "transportation", "trout", "tuna",
  "wealth", "welfare", "whiting", "wildebeest", "wildlife", "you"]

open Pattern in
/-- Endings and what takes their place; `$1` stands for the text of the first group. -/
def singularEndings : List (Pattern × String) := [
  (all [word "s", .finish], ""),
  (all [group 1 (word "ss"), .finish], "$1"),
  (all [group 1 (anyOf [anyWord ["wi", "kni"],
      all [
        anyOf [anyWord ["after", "half", "high", "low", "mid", "non", "night"], .nonWord, .start],
        word "li"]]),
    word "ves", .finish], "$1fe"),
  (all [group 1 (anyOf [word "ar", all [anyOf [word "wo", oneOf ['a', 'e']], word "l"],
      all [oneOf ['e', 'o'], oneOf ['a', 'o']]]),
    word "ves", .finish], "$1f"),
  (all [word "ies", .finish], "y"),
  (all [group 1 (anyWord ["dg", "ss", "ois", "lk", "ok", "wn", "mb", "th", "ch", "ec", "oal", "is",
      "ck", "ix", "sser", "ts", "wb"]),
    word "ies", .finish], "$1ie"),
  (all [.boundary, group 1 (anyOf [word "l",
      all [optional (anyWord ["neck", "cross", "hog", "aun"]), word "t"],
      anyWord ["coll", "faer", "food", "gen", "goon", "group", "hipp", "junk", "vegg"],
      all [optional (word "pork"), word "p"],
      anyWord ["charl", "calor", "cut"]]),
    word "ies", .finish], "$1ie"),
  (all [.boundary, group 1 (anyWord ["mon", "smil"]), word "ies", .finish], "$1ey"),
  (all [.boundary, group 1 (anyOf [all [optional (word "tit"), word "m"], word "l"]),
    word "ice", .finish], "$1ouse"),
  (all [group 1 (anyWord ["seraph", "cherub"]), word "im", .finish], "$1"),
  (all [group 1 (anyOf [anyWord ["x", "ch", "ss", "sh", "zz", "tto", "go", "cho", "alias"],
      all [noneOf ['a', 'o', 'u'], word "us"],
      all [word "t", oneOf ['l', 'm'], word "as"],
      word "gas",
      all [anyWord ["her", "at", "gr"], word "o"],
      all [oneOf ['a', 'e', 'i', 'o', 'u'], word "ris"]]),
    optional (word "es"), .finish], "$1"),
  (all [group 1 (anyWord ["analy", "diagno", "parenthe", "progno", "synop", "the", "empha", "cri",
      "ne"]),
    anyWord ["sis", "ses"], .finish], "$1sis"),
  (all [group 1 (anyOf [anyWord ["movie", "twelve", "abuse"],
      all [word "e", oneOf ['m', 'n'], word "u"]]),
    word "s", .finish], "$1"),
  (all [group 1 (word "test"), anyWord ["is", "es"], .finish], "$1is"),
  (all [group 1 (anyWord ["alumn", "syllab", "vir", "radi", "nucle", "fung", "cact", "stimul",
      "termin", "bacill", "foc", "uter", "loc", "strat"]),
    anyWord ["us", "i"], .finish], "$1us"),
  (all [group 1 (anyWord ["agend", "addend", "millenni", "dat", "extrem", "bacteri", "desiderat",
      "strat", "candelabr", "errat", "ov", "symposi", "curricul", "quor"]),
    word "a", .finish], "$1um"),
  (all [group 1 (anyWord ["apheli", "hyperbat", "periheli", "asyndet", "noumen", "phenomen",
      "criteri", "organ", "prolegomen", "hedr", "automat"]),
    word "a", .finish], "$1on"),
  (all [group 1 (anyWord ["alumn", "alg", "vertebr"]), word "ae", .finish], "$1a"),
  (all [group 1 (anyWord ["cod", "mur", "sil", "vert", "ind"]), word "ices", .finish], "$1ex"),
  (all [group 1 (anyWord ["matr", "append"]), word "ices", .finish], "$1ix"),
  (all [group 1 (word "pe"), group 2 (anyWord ["rson", "ople"]), .finish], "$1rson"),
  (all [group 1 (word "child"), word "ren", .finish], "$1"),
  (all [group 1 (word "eau"), optional (word "x"), .finish], "$1"),
  (all [word "men", .finish], "man")]

open Pattern in
/-- Endings of nouns that are their own singular. -/
def uncountableEndings : List Pattern := [
  all [word "pok", oneOf ['e', 'é'], word "mon", .finish],
  all [noneOf ['a', 'e', 'i', 'o', 'u'], word "ese", .finish],
  all [word "deer", .finish],
  all [word "fish", .finish],
  all [word "measles", .finish],
  all [word "o", oneOf ['i', 'u'], word "s", .finish],
  all [word "pox", .finish],
  all [word "sheep", .finish]]

/-- Endings with their replacements in the order in which they are tried. -/
def endingsByPriority : List (Pattern × String) :=
  (singularEndings ++ uncountableEndings.map fun p => (p, "$0")).reverse

/-- A text in the spelling of a word: small letters if the word has no capitals, capitals if it has
no small letters, unchanged if the word starts with a capital, and small letters otherwise. -/
def inSpellingOf (word text : List Char) : List Char :=
  if word = text then text
  else if word = lowerChars word then lowerChars text
  else if word = upperChars word then upperChars text
  else if (word.head?.map isUppercase).getD false then text
  else lowerChars text

/-- Every `$` with the given digit replaced by a text. -/
def fillIn (digit : Char) (text : List Char) : List Char → List Char
  | '$' :: d :: rest =>
    if d = digit then text ++ fillIn digit text rest else '$' :: fillIn digit text (d :: rest)
  | c :: rest => c :: fillIn digit text rest
  | [] => []

/-- The text without its `$` marks and the characters after them; a mark at the end stays. -/
def dropMarks : List Char → List Char
  | '$' :: _ :: rest => dropMarks rest
  | c :: rest => c :: dropMarks rest
  | [] => []

/-- What takes the place of a match: the template with its groups, in the spelling of the word. -/
def fillTemplate (word template : List Char) (found : Pattern.Match) : List Char :=
  ((0, found.matched) :: found.groups).foldl
    (fun text (number, captured) =>
      fillIn (Char.ofNat ('0'.toNat + number)) (inSpellingOf word captured) text)
    (inSpellingOf word template)

/-- The word with the first ending that matches replaced. The marks that are left are dropped, also
those of the word itself; a word without a plural ending keeps its marks. -/
def replaceEnding (word : List Char) : List (Pattern × String) → List Char
  | [] => word
  | (pattern, template) :: endings =>
    match pattern.find? word with
    | some found =>
      dropMarks (found.before ++ fillTemplate word template.toList found ++ found.after)
    | none => replaceEnding word endings

/-- The singular of a plural noun, if the noun is irregular. Of two nouns with one plural the later
is taken. -/
def irregularSingular? (plural : String) : Option String :=
  (irregularNouns.reverse.find? fun noun => noun.2 = plural).map (·.1)

/-- The singular of a noun. -/
def singular (word : List Char) : List Char :=
  let token := lowerChars word
  let key := String.ofList token
  if irregularNouns.any fun noun => noun.1 = key then inSpellingOf word token
  else match irregularSingular? key with
    | some noun => inSpellingOf word noun.toList
    | none =>
      if token.isEmpty || uncountableNouns.contains key then word
      else replaceEnding word endingsByPriority

end AqlBuilder.Text
