/-
JSON documents and their text: objects keep the order of their fields, numbers are natural, and the
printed form puts every element on a line of its own, indented by two blanks for each level. Empty
lists and objects stay on one line.
-/
import FlashVolume.Text.Hex

namespace FlashVolume.Text

/-- A JSON document. -/
inductive Json
  | null
  | bool (value : Bool)
  | number (value : Nat)
  | string (value : String)
  | list (elements : List Json)
  | object (fields : List (String × Json))

namespace Json

/-- A value that may be missing. -/
def ofOption {α : Type} (render : α → Json) : Option α → Json
  | some a => render a
  | none => null

/-- A character inside a string: quotes, backslashes and control characters are escaped. -/
def escape (c : Char) : List Char :=
  if c = '"' then ['\\', '"']
  else if c = '\\' then ['\\', '\\']
  else if c = '\n' then ['\\', 'n']
  else if c = '\r' then ['\\', 'r']
  else if c = '\t' then ['\\', 't']
  else if c.toNat = 8 then ['\\', 'b']
  else if c.toNat = 12 then ['\\', 'f']
  else if c.toNat < 32 then ['\\', 'u', '0', '0'] ++ Hex.ofByte c.toNat.toUInt8
  else [c]

/-- A string between quotes. -/
def quote (s : String) : String := "\"" ++ String.ofList (s.toList.flatMap escape) ++ "\""

/-- A line break and the blanks that begin a line at a level. -/
def newline (level : Nat) : String := "\n" ++ String.ofList (List.replicate (2 * level) ' ')

/-- Parts one to a line between two brackets, which stand alone when there are no parts. -/
def block (level : Nat) (opening closing : String) (parts : List String) : String :=
  if parts.isEmpty then opening ++ closing
  else
    opening ++ newline (level + 1) ++ ("," ++ newline (level + 1)).intercalate parts ++
      newline level ++ closing

mutual

/-- The text of a document that starts at some level of indentation. -/
def render (level : Nat) : Json → String
  | null => "null"
  | bool true => "true"
  | bool false => "false"
  | number value => toString value
  | string value => quote value
  | list elements => block level "[" "]" (renderList (level + 1) elements)
  | object fields => block level "\x7b" "\x7d" (renderFields (level + 1) fields)

/-- The texts of the elements of a list. -/
def renderList (level : Nat) : List Json → List String
  | [] => []
  | element :: rest => render level element :: renderList level rest

/-- The texts of the fields of an object. -/
def renderFields (level : Nat) : List (String × Json) → List String
  | [] => []
  | (name, value) :: rest => (quote name ++ ": " ++ render level value) :: renderFields level rest

end

/-- The text of a whole document. -/
def pretty (document : Json) : String := render 0 document

end Json

end FlashVolume.Text
