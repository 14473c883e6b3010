import GnssLink.Text.Hex
/-!
# GnssLink.Json.Tree

**JSON documents as trees**, and their shortest text (`Tree.render`).

A number is kept as it is written. A text may hold halves of surrogate pairs that no character
stands for; such a text can be passed on or ignored, but it is no string (`Tree.string?`).
-/

namespace GnssLink.Json

/-- What a text consists of. -/
inductive Piece where
  | char (c : Char)
  /-- One half of a surrogate pair without the other. -/
  | half (unit : Nat)
  deriving DecidableEq, Repr

/-- A JSON document. -/
inductive Tree where
  | null
  | bool (b : Bool)
  /-- A number as it is written. -/
  | number (literal : String)
  | text (pieces : List Piece)
  | array (items : List Tree)
  /-- Named members in order; a name may occur more than once. -/
  | object (members : List (List Piece × Tree))

/-- The character that a part of a text is. -/
def Piece.char? : Piece → Option Char
  | .char c => some c
  | .half _ => none

/-- The string that a text is, unless it holds halves of surrogate pairs. -/
def string? (pieces : List Piece) : Option String :=
  (pieces.mapM Piece.char?).map String.ofList

/-- The text of a string. -/
def piecesOf (s : String) : List Piece := s.toList.map .char

namespace Tree

/-- A whole number. -/
def ofNat (n : Nat) : Tree := .number (toString n)

/-- A text. -/
def ofString (s : String) : Tree := .text (piecesOf s)

/-- An object with the given names. -/
def ofFields (fields : List (String × Tree)) : Tree :=
  .object (fields.map fun (name, t) => (piecesOf name, t))

/-- The string of a text. -/
def string? : Tree → Option String
  | .text pieces => Json.string? pieces
  | _ => none

end Tree

/-! ### Writing -/

/-- An escape by number. -/
def escapeUnit (n : Nat) : String := "\\u" ++ Text.Hex.lower 4 n

/-- A part of a text between quotes. Quotes, backslashes and control characters are escaped. -/
def renderPiece : Piece → String
  | .char '\x22' => "\\\""
  | .char '\\' => "\\\\"
  | .char c => if c.toNat < 0x20 then escapeUnit c.toNat else String.singleton c
  | .half n => escapeUnit n

/-- A text between quotes. -/
def renderText (pieces : List Piece) : String :=
  "\"" ++ String.join (pieces.map renderPiece) ++ "\""

mutual

/-- The text of a document without blanks. -/
def Tree.render : Tree → String
  | .null => "null"
  | .bool b => if b then "true" else "false"
  | .number literal => literal
  | .text pieces => renderText pieces
  | .array items => "[" ++ ",".intercalate (renderItems items) ++ "]"
  | .object members => "\x7b" ++ ",".intercalate (renderMembers members) ++ "\x7d"

/-- The texts of the items of a sequence. -/
def renderItems : List Tree → List String
  | [] => []
  | t :: rest => t.render :: renderItems rest

/-- The texts of the members of an object. -/
def renderMembers : List (List Piece × Tree) → List String
  | [] => []
  | (name, t) :: rest => (renderText name ++ ":" ++ t.render) :: renderMembers rest

end

end GnssLink.Json
