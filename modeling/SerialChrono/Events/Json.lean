import SerialChrono.Library.CText

/-!
# JSON values (`tiny-json.h`)

The tree `json_create` builds from a text, and the two searches the program makes in it.  The
text of a value is kept as it stands between its quotes or delimiters; the program never looks
at the type of a value beyond telling objects and arrays from the rest.  How a text is parsed
into a tree is left open: the functions that call `json_create` take it as an argument,
`jsonCreate`, that gives the tree for a text and the size of the pool of nodes.
-/

namespace SerialChrono

open CText

/-- A JSON value. -/
inductive Json
  | obj (properties : List (CString × Json))
  | arr (items : List Json)
  | value (text : CString)

namespace Json

/-- `json_getProperty`: the first property of the name. -/
def getProperty : Json → (name : CString) → Option Json
  | .obj properties, name => properties.lookup name
  | _, _ => none

/-- `json_getPropertyValue`: NULL also for objects and arrays. -/
def getPropertyValue (j : Json) (name : CString) : Option CString :=
  match j.getProperty name with
  | some (.value text) => some text
  | _ => none

/-- The object with these texts as its properties. -/
def ofFields (fields : List (CString × CString)) : Json :=
  .obj (fields.map fun f => (f.1, .value f.2))

end Json

/-- The type of `json_create`. -/
abbrev JsonCreate := (text : CString) → (qty : ℕ) → Option Json

end SerialChrono
