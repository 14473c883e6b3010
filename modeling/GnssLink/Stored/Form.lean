import GnssLink.Json.Reader
import GnssLink.Text.Numeral
/-!
# GnssLink.Stored.Form

**Values as JSON documents.** A `Form` says how values of a type are stored: how they are written,
and which documents are read back as which value.

* A record is an object. Members with other names are ignored, those of the record must not occur
  twice. A sequence of all its fields in order is read as well (`fields?`).
* A choice is the name of the alternative, or an object whose only member has that name and holds
  what belongs to the alternative (`alternative?`).
-/

namespace GnssLink.Stored

open GnssLink.Json (Tree)

/-- How values of a type are stored. -/
structure Form (α : Type) where
  /-- The document of a value. -/
  write : α → Tree
  /-- The value of a document. -/
  read? : Tree → Option α

namespace Form

variable {α : Type}

/-- The value that a text stands for. -/
def ofText? (form : Form α) (text : String) : Option α := (Json.read? text).bind form.read?

/-- The text of a value. -/
def toText (form : Form α) (a : α) : String := (form.write a).render

/-- The normal form of a text: its value, written. -/
def normalize? (form : Form α) (text : String) : Option String :=
  (form.ofText? text).map form.toText

/-! ### Simple forms -/

/-- Truth values. -/
def bool : Form Bool where
  write := .bool
  read?
    | .bool b => some b
    | _ => none

/-- Whole numbers up to a limit, written without sign, point and exponent. -/
def nat (limit : Nat) : Form Nat where
  write := .ofNat
  read?
    | .number literal =>
      (Text.Numeral.digits? 10 literal.toList).filter fun n => n ≤ limit
    | _ => none

/-- Texts. -/
def string : Form String where
  write := .ofString
  read? := Tree.string?

/-- Sequences. -/
def list (form : Form α) : Form (List α) where
  write l := .array (l.map form.write)
  read?
    | .array items => items.mapM form.read?
    | _ => none

/-- Values that may be missing. -/
def option (form : Form α) : Form (Option α) where
  write
    | some a => form.write a
    | none => .null
  read?
    | .null => some none
    | t => (form.read? t).map some

/-- Values that are one of a type of fewer values. -/
def map {β : Type} (form : Form α) (make : α → β) (back : β → α) : Form β where
  write b := form.write (back b)
  read? t := (form.read? t).map make

/-- 16-bit numbers. -/
def uint16 : Form UInt16 := (nat (UInt16.size - 1)).map UInt16.ofNat UInt16.toNat

/-- 32-bit numbers. -/
def uint32 : Form UInt32 := (nat (UInt32.size - 1)).map UInt32.ofNat UInt32.toNat

/-- 64-bit numbers. -/
def uint64 : Form UInt64 := (nat (UInt64.size - 1)).map UInt64.ofNat UInt64.toNat

/-- Sizes and counts. -/
def size : Form Nat := nat (UInt64.size - 1)

end Form

/-! ### Records -/

/-- The members of an object by name, if all names are strings. -/
def named? (members : List (List Json.Piece × Tree)) : Option (List (String × Tree)) :=
  members.mapM fun (name, t) => (Json.string? name).map (·, t)

/-- The member with a name, which must not occur twice. -/
def member? (members : List (String × Tree)) (name : String) : Option (Option Tree) :=
  match members.filter fun entry => entry.1 = name with
  | [] => some none
  | [(_, t)] => some (some t)
  | _ => none

/-- The fields of a record; a field that an object lacks is `none`. -/
def fields? (names : List String) : Tree → Option (List (Option Tree))
  | .array items => if items.length = names.length then some (items.map some) else none
  | .object members => (named? members).bind fun members => names.mapM (member? members)
  | _ => none

/-- Whether an object has no members but those of a record. -/
def hasOnly (names : List String) : Tree → Bool
  | .object members => members.all fun (name, _) => names.any fun n => Json.string? name == some n
  | _ => true

/-! ### Choices -/

/-- The name of an alternative and what comes with it, `none` for a bare name. -/
def alternative? : Tree → Option (String × Option Tree)
  | .text pieces => (Json.string? pieces).map (·, none)
  | .object [(name, t)] => (Json.string? name).map (·, some t)
  | _ => none

/-- A choice between names. -/
def Form.names {α : Type} (nameOf : α → String) (all : List α) : Form α where
  write a := .ofString (nameOf a)
  read? t :=
    match alternative? t with
    | some (name, none) | some (name, some .null) => all.find? fun a => nameOf a = name
    | _ => none

end GnssLink.Stored
