import Mensura.Decimal.Style

namespace Mensura

/-- A JSON document as far as reports need it. -/
inductive Document where
  | text (text : String)
  | number (x : Float)
  | count (n : Nat)
  | truth (holds : Bool)
  | list (items : List Document)
  | record (fields : List (String × Document))

def hexDigit (n : Nat) : Char :=
  Nat.digitChar (n % 16)

/-- A character inside quotes. Quotes, backslashes and control characters are escaped. -/
def escapeChar (c : Char) : List Char :=
  if c = '"' then ['\\', '"']
  else if c = '\\' then ['\\', '\\']
  else if c = '\n' then ['\\', 'n']
  else if c = '\r' then ['\\', 'r']
  else if c = '\t' then ['\\', 't']
  else if c = '\x08' then ['\\', 'b']
  else if c = '\x0c' then ['\\', 'f']
  else if c.toNat < 32 then ['\\', 'u', '0', '0', hexDigit (c.toNat / 16), hexDigit c.toNat]
  else [c]

def quoted (text : String) : String :=
  String.ofList ('"' :: text.toList.flatMap escapeChar ++ ['"'])

/-- A block of items between two brackets, each item on lines of its own one
step further in. An empty block is written without a line break. -/
def block (opening closing margin : String) (items : List String) : String :=
  if items.isEmpty then opening ++ closing
  else
    let inner := margin ++ "  "
    opening ++ "\n" ++ (",\n").intercalate (items.map (inner ++ ·)) ++ "\n" ++ margin ++ closing

mutual

/-- The text of a document whose first line starts behind `margin`. -/
def Document.write (margin : String) : Document → String
  | .text s => quoted s
  | .number x => NumberStyle.json.write x
  | .count n => String.ofList (decimalDigits n)
  | .truth true => "true"
  | .truth false => "false"
  | .list items => block "[" "]" margin (Document.writeItems (margin ++ "  ") items)
  | .record fields => block "\x7b" "\x7d" margin (Document.writeFields (margin ++ "  ") fields)

def Document.writeItems (margin : String) : List Document → List String
  | [] => []
  | item :: items => item.write margin :: Document.writeItems margin items

def Document.writeFields (margin : String) : List (String × Document) → List String
  | [] => []
  | (name, value) :: fields =>
    (quoted name ++ ": " ++ value.write margin) :: Document.writeFields margin fields

end

end Mensura
