import GnssLink.Text.Numeral
/-!
# GnssLink.Dump.Arguments

**The command line of the dump command.** Options have a letter, and a long name (`ofName?`):

    -p <endpoint>   where the receiver is (required)
    -n              do not look for the receiver
    -x              show the bytes of each message
    -d <seconds>    when to stop
    -c <count>      after how many messages to stop

Letters may be joined. A value stands in the next word, unless that looks like an option, or in the
same one, after an equals sign that a letter may do without. Each option is given at most once, and
there is nothing but options (`Arguments.parse?`).
-/

namespace GnssLink.Dump

/-- What the user asked for. -/
structure Arguments where
  /-- Where the receiver is. -/
  endpoint : String
  /-- Whether to use the endpoint as it is, without looking for the receiver. -/
  noProbe : Bool
  /-- Whether to show the bytes of each message. -/
  hexdump : Bool
  /-- After how many seconds to stop. -/
  duration : Option Nat
  /-- After how many messages to stop. -/
  count : Option Nat
  deriving DecidableEq, Repr

namespace Arguments

/-- The options without a value. -/
inductive Flag where
  | noProbe
  | hexdump
  deriving DecidableEq, Repr

/-- The options with a value. -/
inductive Setting where
  /-- Where the receiver is. -/
  | endpoint
  /-- When to stop. -/
  | duration
  /-- After how many messages to stop. -/
  | count
  deriving DecidableEq, Repr

/-- The options as their letters. -/
def ofLetter? : Char → Option (Flag ⊕ Setting)
  | 'n' => some (.inl .noProbe)
  | 'x' => some (.inl .hexdump)
  | 'p' => some (.inr .endpoint)
  | 'd' => some (.inr .duration)
  | 'c' => some (.inr .count)
  | _ => none

/-- The options as their long names. -/
def ofName? (name : List Char) : Option (Flag ⊕ Setting) :=
  match String.ofList name with
  | "no-probe" => some (.inl .noProbe)
  | "hexdump" => some (.inl .hexdump)
  | "port" => some (.inr .endpoint)
  | "duration" => some (.inr .duration)
  | "count" => some (.inr .count)
  | _ => none

/-- The options read so far. -/
structure Draft where
  endpoint : Option String := none
  noProbe : Bool := false
  hexdump : Bool := false
  duration : Option Nat := none
  count : Option Nat := none
  deriving DecidableEq, Repr

namespace Draft

/-- Sets a flag that is not set yet. -/
def raise? (d : Draft) : Flag → Option Draft
  | .noProbe => if d.noProbe then none else some { d with noProbe := true }
  | .hexdump => if d.hexdump then none else some { d with hexdump := true }

/-- Reads a count: a 32-bit number, which may have any sign if it is zero. -/
def count? (text : List Char) : Option Nat :=
  match Text.Numeral.integer? text with
  | some n => if 0 ≤ n ∧ n < 0x100000000 then some n.toNat else none
  | none => none

/-- Gives a value to a setting that has none yet. -/
def put? (d : Draft) (setting : Setting) (text : List Char) : Option Draft :=
  match setting with
  | .endpoint =>
    if d.endpoint.isSome then none else some { d with endpoint := some (String.ofList text) }
  | .duration =>
    if d.duration.isSome then none
    else
      (Text.Numeral.natural? 10 (UInt64.size - 1) text).map fun n => { d with duration := some n }
  | .count =>
    if d.count.isSome then none else (count? text).map fun n => { d with count := some n }

/-- The arguments, if there is an endpoint among them. -/
def finish? (d : Draft) : Option Arguments :=
  d.endpoint.map fun endpoint => { d with endpoint }

end Draft

/-- Reads joined letters. The answer has the setting whose value is in the next word, if there is
one. -/
def readLetters? : List Char → Draft → Option (Draft × Option Setting)
  | [], d => some (d, none)
  | c :: rest, d =>
    match ofLetter? c with
    | none => none
    | some (.inl flag) => (d.raise? flag).bind (readLetters? rest)
    | some (.inr setting) =>
      match rest with
      | [] => some (d, some setting)
      | '=' :: text => (d.put? setting text).map (·, none)
      | text => (d.put? setting text).map (·, none)

/-- Reads a long name, with its value if there is an equals sign. -/
def readName? (word : List Char) (d : Draft) : Option (Draft × Option Setting) :=
  let name := word.takeWhile (· ≠ '=')
  match ofName? name, word.drop name.length with
  | some (.inl flag), [] => (d.raise? flag).map (·, none)
  | some (.inr setting), [] => some (d, some setting)
  | some (.inr setting), _ :: text => (d.put? setting text).map (·, none)
  | _, _ => none

/-- Reads a word that is an option. -/
def readWord? (word : List Char) (d : Draft) : Option (Draft × Option Setting) :=
  match word with
  | '-' :: '-' :: name => readName? name d
  | '-' :: c :: letters => readLetters? (c :: letters) d
  | _ => none

/-- Whether a word can be the value of an option. -/
def isValue (word : List Char) : Bool := word.head? != some '-' || word == ['-']

/-- Reads all words. After two hyphens there are no options, and so nothing may follow. -/
def readWords? : List (List Char) → Draft → Option Draft
  | [], d => some d
  | ['-', '-'] :: rest, d => if rest.isEmpty then some d else none
  | word :: rest, d =>
    match readWord? word d with
    | none => none
    | some (d, none) => readWords? rest d
    | some (d, some setting) =>
      match rest with
      | [] => none
      | value :: rest =>
        if isValue value then (d.put? setting value).bind (readWords? rest) else none

/-- Reads a command line; `none` if it is wrong. -/
def parse? (words : List String) : Option Arguments :=
  (readWords? (words.map String.toList) {}).bind Draft.finish?

end Arguments
end GnssLink.Dump
