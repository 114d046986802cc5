import LinkedContracts.Mask
import LinkedContracts.Query
import LinkedContracts.Settings

/-! # Queries behind a mask

    A query is put behind the mask of whoever asks.  Unless the selection is
    given, the result has what the query names, without what the mask
    forbids. -/

namespace LinkedContracts

variable [TextLibrary]

namespace Query

/-- What a query selects behind a mask. -/
def maskedSelection (mask schema : Schema) : Selection :=
  (Selection.ofSchema schema).rectify (Selection.ofSchema (Mask.prune schema mask))

/-- Compile a query for someone with a mask. -/
def compileMasked (settings : Settings) (mask schema : Schema)
    (select : Option Selection) (options : QueryOptions) :
    Except Error Query := do
  let limit ← settings.limit options.limit
  compile settings.tables (select.getD (maskedSelection mask schema))
    (Mask.merge mask schema) { options with limit := some limit }

end Query

end LinkedContracts
