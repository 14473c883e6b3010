import GnssLink.Config.Chunks
import GnssLink.Number.Fixed
import GnssLink.Stream.Message
import GnssLink.Stream.Tally
import GnssLink.Time
/-!
# GnssLink.Dump.Listing

**What the dump command prints**: a line for each message, if asked for with the message's bytes in
rows of sixteen, and at the end a line for each protocol and one for the total.
-/

namespace GnssLink.Dump

open GnssLink.Stream (Message Protocol Tally Traffic)
open GnssLink.Text (column padLeft padRight zeroPadded)

/-- The line that comes first. -/
def heading : String := "Dumping received data...\n"

/-- The milliseconds from the message before, if there was one, to the one received at `instant`. -/
def gapSince (last : Option Int) (instant : Int) : Int :=
  last.elim 0 fun last => signedMillis (instant - last)

/-- The line of a message that came `gap` milliseconds after the one before. -/
def messageLine (m : Message) (gap : Int) : String :=
  "message " ++ column 4 m.seq.toNat ++ ", dt " ++ padLeft ' ' 4 (toString gap) ++ ", size "
    ++ column 4 m.data.length ++ ", " ++ padRight 8 m.protocol.name ++ " " ++ padRight 20 m.name
    ++ " " ++ m.info.getD "n/a" ++ "\n"

/-- How many bytes a row shows. -/
def rowSize : Nat := 16

/-- A byte as a character, if it is printable ASCII. -/
def shown (b : UInt8) : Char := if 0x20 ≤ b ∧ b ≤ 0x7e then Char.ofNat b.toNat else '.'

/-- A row of bytes that starts at an offset. -/
def row (offset : Nat) (bytes : List UInt8) : String :=
  "    0x" ++ Text.Hex.lower 4 offset ++ " " ++ zeroPadded 5 offset ++ "  "
    ++ String.join (bytes.map fun b => Text.Hex.lower 2 b.toNat ++ " ")
    ++ String.join (List.replicate (rowSize - bytes.length) "   ")
    ++ " |" ++ String.ofList (bytes.map shown) ++ "|\n"

/-- The rows of a message. -/
def rows (data : List UInt8) : String :=
  String.join ((Config.chunksOf rowSize data).zipIdx.map fun (bytes, i) => row (rowSize * i) bytes)

/-- What is printed about a message that was received at `instant`. -/
def listing (hexdump : Bool) (last : Option Int) (instant : Int) (m : Message) : String :=
  messageLine m (gapSince last instant) ++ if hexdump then rows m.data else ""

/-- What part of a total something is, in percent; nothing is no part of nothing. -/
def percent (part total : Nat) : Float :=
  if total = 0 then 0 else Float.ofNat part / Float.ofNat total * 100

/-- A percentage in its column. -/
def percentage (part total : Nat) : String :=
  "(" ++ Number.FixedFormat.render { places := 1, width := 5 } (percent part total) ++ "%)"

/-- The line of a protocol with some traffic out of a total. -/
def trafficLine (p : Protocol) (t total : Traffic) : String :=
  "stats " ++ padRight 8 p.name ++ " count " ++ column 6 t.count.toNat ++ " "
    ++ percentage t.count.toNat total.count.toNat ++ "  size " ++ column 10 t.bytes.toNat ++ " "
    ++ percentage t.bytes.toNat total.bytes.toNat ++ "\n"

/-- The line of the total. -/
def totalLine (total : Traffic) : String :=
  "stats Total    count " ++ column 6 total.count.toNat ++ " (100.0%)  size "
    ++ column 10 total.bytes.toNat ++ " (100.0%)\n"

/-- The lines of all protocols and of the total. -/
def statistics (t : Tally) : String :=
  String.join (Protocol.all.map fun p => trafficLine p (t.get p) t.total) ++ totalLine t.total

end GnssLink.Dump
