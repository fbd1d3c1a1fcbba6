import Wordbook.Entry

/-!
# Dialects

A dialect is what a dialect document says: a name, the types it documents and the commands it
declares, both in the order of the document.
-/

namespace Wordbook

/-- The content of a dialect document. -/
structure Dialect where
  /-- The name of the dialect. -/
  name : String
  /-- The documented types. -/
  types : List ValueType := []
  /-- The declared commands. -/
  commands : List Command := []
deriving DecidableEq, Repr, Inhabited

end Wordbook
