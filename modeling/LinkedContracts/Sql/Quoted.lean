import LinkedContracts.Text.Split

/-! # Quoting

    Names and texts inside a statement.  A name stands between double
    quotes and a text between single ones; the quote itself is written
    twice, so that no name or text ends early. -/

namespace LinkedContracts

namespace Sql

/-- Characters between quotes, quotes among them doubled. -/
def quoted (quote : Char) (cs : List Char) : List Char :=
  quote :: (replaceChar quote [quote, quote] cs ++ [quote])

/-- The identifier of a name. -/
def ident (name : String) : String := String.ofList (quoted '"' name.toList)

/-- The literal of a text. -/
def literal (text : String) : String := String.ofList (quoted '\'' text.toList)

end Sql

end LinkedContracts
