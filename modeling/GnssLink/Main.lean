import GnssLink.Dump.Run
/-!
# GnssLink.Main

**The dump command as a program.** A serial device is read as a file, from which a recording can be
played as well; no other endpoint can be opened.
-/

open GnssLink

/-- What can be read from an endpoint. -/
def recordingOf (endpoint : Option Endpoint) : IO (Option Capture) := do
  match endpoint with
  | some (.serial path _) =>
    try
      let bytes ← IO.FS.readBinFile path
      return some ⟨bytes.toList⟩
    catch _ => return none
  | _ => return none

/-- Dumps the messages from an endpoint. -/
def main (words : List String) : IO UInt32 := do
  let recording ← recordingOf (Dump.endpointOf? words)
  let (text, exit) := Dump.run (fun _ => recording) words
  IO.print text
  return exit.code.toUInt32
