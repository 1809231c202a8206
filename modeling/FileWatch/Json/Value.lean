/-! # Value — JSON documents

The values that a JSON text can spell. A string whose escapes leave half of a surrogate pair is a
JSON string all the same but has no text, so the text of a string is optional. Numbers keep their
spelling.
-/

namespace FileWatch.Json

/-- A JSON value. -/
inductive Value where
  | null
  | bool (b : Bool)
  | number (spelling : List Char)
  | string (text : Option (List Char))
  | array (items : List Value)
  | object (members : List (Option (List Char) × Value))
  deriving Inhabited

end FileWatch.Json
