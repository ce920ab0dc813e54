import TagFormula.Catalog

/-!
# Suggestions

The entries of a catalog, ordered against the text typed so far: those whose label contains the text
come first, letter case aside. Only they are shown.
-/

namespace TagFormula

namespace Text

/-- `piece` occurs in a text without gaps. -/
def hasPiece (piece : List Char) : List Char → Bool
  | [] => piece.isEmpty
  | c :: rest => piece.isPrefixOf (c :: rest) || hasPiece piece rest

end Text

namespace Suggestion

/-- The label contains the text, letter case aside. -/
def keyMatches (key text : String) : Bool :=
  text.isEmpty || Text.hasPiece (Text.lower text.toList) (Text.lower key.toList)

/-- All entries: first those that match the text, then the others, each in catalog order. -/
def rank (entries : List Tag) (text : String) : List Tag :=
  if text.isEmpty then entries
  else
    let needle := Text.lower text.toList
    let (matched, others) :=
      entries.partition fun tag => Text.hasPiece needle (Text.lower tag.key.toList)
    matched ++ others

/-- The entries that are shown: the ranking up to the first entry that does not match. -/
def shown (entries : List Tag) (text : String) : List Tag :=
  (rank entries text).takeWhile fun tag => keyMatches tag.key text

end Suggestion

end TagFormula
