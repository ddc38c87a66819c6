/-!
# JSON values

A JSON value that is to be written.
-/

set_option autoImplicit false

namespace EpisodeCut

/-- A JSON value. Numbers are literals, and objects keep the order of their members. -/
inductive Json where
  | null
  | boolean (value : Bool)
  | number (literal : List Char)
  | text (value : String)
  | array (items : List Json)
  | object (members : List (String × Json))
  deriving Repr

end EpisodeCut
