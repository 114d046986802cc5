import LinkedContracts.Text.Case
import LinkedContracts.Text.Split

/-! # Words and text search

    A word is a longest run of alphabetic characters and numbers.  A text
    matches a search term if every word of the term occurs in it, up to
    letter case and common English endings. -/

namespace LinkedContracts

namespace Text

/-- The words of a text; `current` is the word under way, its last letter
    first. -/
def wordsFrom (current : List Char) : List Char → List (List Char)
  | [] => if current.isEmpty then [] else [current.reverse]
  | c :: rest =>
      if isAlphanumeric c then wordsFrom (c :: current) rest
      else if current.isEmpty then wordsFrom [] rest
      else current.reverse :: wordsFrom [] rest

/-- The words of a text. -/
def words (text : String) : List (List Char) := wordsFrom [] text.toList

/-- The search expression of a term: its words, all of them wanted. -/
def searchExpression (term : String) : String :=
  joinWith " & " ((words term).map String.ofList)

/-- Endings that a stem goes without. -/
def endings : List (List Char) :=
  [['i', 'n', 'g'], ['e', 'd'], ['e', 's'], ['l', 'y'], ['s']]

/-- A word without its ending, if three letters remain. -/
def withoutEnding (word ending : List Char) : Option (List Char) :=
  if ending.isSuffixOf word ∧ ending.length + 3 ≤ word.length then
    some (word.take (word.length - ending.length))
  else none

/-- The stem of a word: lower case, without the first ending that leaves
    three letters. -/
def stem (word : List Char) : List Char :=
  let word := lower word
  (endings.findSome? (withoutEnding word)).getD word

/-- Whether every word of a term occurs in a text, by stems.  A term without
    words matches nothing. -/
def matchesTerm (text term : String) : Bool :=
  let wanted := (words term).map stem
  let present := (words text).map stem
  !wanted.isEmpty && wanted.all fun w => present.contains w

end Text

end LinkedContracts
