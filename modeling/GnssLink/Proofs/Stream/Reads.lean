import GnssLink.Proofs.Stream.Layout
/-!
# GnssLink.Proofs.Stream.Reads

**How a stream is cut into reads does not show.** A stream may come in any number of reads, and
messages may be asked for at any time in between (`Turn`). Two runs over the same bytes find the
same frames at the same offsets, the same garbage between them, and leave the same bytes waiting
(`readOut_eq_of_added_eq`). Where one run of garbage ends and the next begins does depend on the
reads, so garbage is compared by the gaps between frames (`gaps`).

The proof compares both runs with the layout of the bytes: whatever a run has handed out, followed
by the layout of what it still holds and of what is still to come, is the layout of the whole
(`layout_of_run`).
-/

namespace GnssLink.Stream

/-! ### Frames and gaps -/

/-- The frames among some messages, each with its offset, where the first message starts at
`offset`. -/
def framesFrom (offset : Nat) : List Message → List (Nat × Protocol × List UInt8)
  | [] => []
  | m :: rest =>
    if m.protocol = .garbage then framesFrom (offset + m.data.length) rest
    else (offset, m.protocol, m.data) :: framesFrom (offset + m.data.length) rest

/-- The garbage before each frame and after the last one, each joined into one run; `before` is
the garbage passed already. -/
def gapsFrom (before : List UInt8) : List Message → List (List UInt8)
  | [] => [before]
  | m :: rest =>
    if m.protocol = .garbage then gapsFrom (before ++ m.data) rest
    else before :: gapsFrom [] rest

/-- The frames among the messages of a stream, each with its offset in the stream. -/
def frames (messages : List Message) : List (Nat × Protocol × List UInt8) := framesFrom 0 messages

/-- The garbage before each frame of a stream and after the last one. -/
def gaps (messages : List Message) : List (List UInt8) := gapsFrom [] messages

namespace Piece

/-- The frames among some parts of a stream, where the first part starts at `offset`. -/
def framesFrom (offset : Nat) : List Piece → List (Nat × Protocol × List UInt8)
  | [] => []
  | .frame p data :: rest => (offset, p, data) :: framesFrom (offset + data.length) rest
  | .stray _ :: rest => framesFrom (offset + 1) rest

/-- The stray bytes before each frame and after the last one. -/
def gapsFrom (before : List UInt8) : List Piece → List (List UInt8)
  | [] => [before]
  | .frame _ _ :: rest => before :: gapsFrom [] rest
  | .stray b :: rest => gapsFrom (before ++ [b]) rest

theorem framesFrom_map_stray (offset : Nat) (data : List UInt8) (rest : List Piece) :
    framesFrom offset (data.map .stray ++ rest) = framesFrom (offset + data.length) rest := by
  induction data generalizing offset with
  | nil => rfl
  | cons b data ih =>
    rw [List.map_cons, List.cons_append, framesFrom, ih, List.length_cons]
    congr 1
    omega

theorem gapsFrom_map_stray (before data : List UInt8) (rest : List Piece) :
    gapsFrom before (data.map .stray ++ rest) = gapsFrom (before ++ data) rest := by
  induction data generalizing before with
  | nil => rw [List.append_nil]; rfl
  | cons b data ih =>
    rw [List.map_cons, List.cons_append, gapsFrom, ih, List.append_assoc]
    rfl

end Piece

/-- The frames of a stream can be read off its layout. -/
theorem framesFrom_pieces (offset : Nat) (messages : List Message) :
    Piece.framesFrom offset (messages.flatMap Message.pieces) = framesFrom offset messages := by
  induction messages generalizing offset with
  | nil => rfl
  | cons m rest ih =>
    rw [List.flatMap_cons, framesFrom, Message.pieces]
    split
    · rw [Piece.framesFrom_map_stray, ih]
    · rw [List.singleton_append, Piece.framesFrom, ih]

/-- The gaps of a stream can be read off its layout. -/
theorem gapsFrom_pieces (before : List UInt8) (messages : List Message) :
    Piece.gapsFrom before (messages.flatMap Message.pieces) = gapsFrom before messages := by
  induction messages generalizing before with
  | nil => rfl
  | cons m rest ih =>
    rw [List.flatMap_cons, gapsFrom, Message.pieces]
    split
    · rw [Piece.gapsFrom_map_stray, ih]
    · rw [List.singleton_append, Piece.gapsFrom, ih]

/-! ### Runs -/

/-- What is done with a stream. -/
inductive Turn where
  | add (data : List UInt8)
  | next
  deriving DecidableEq, Repr

/-- The bytes that are read in a run. -/
def added : List Turn → List UInt8
  | [] => []
  | .add data :: rest => data ++ added rest
  | .next :: rest => added rest

namespace Demux

/-- The messages of a run, and the stream after it. -/
def run : List Turn → Demux → List Message × Demux
  | [], d => ([], d)
  | .add data :: rest, d => run rest (d.add data)
  | .next :: rest, d =>
    match d.next? with
    | none => run rest d
    | some (m, d') => (m :: (run rest d').1, (run rest d').2)

/-- The messages of a run on a new stream, after which all messages that remain are asked for, and
the stream after that. -/
def readOut (turns : List Turn) : List Message × Demux :=
  ((run turns {}).1 ++ (run turns {}).2.drain.1, (run turns {}).2.drain.2)

/-- **What a run has handed out is the start of the layout** of all bytes that the stream held or
was given; the rest of the layout is that of the bytes it holds in the end. -/
theorem layout_of_run (turns : List Turn) (d : Demux) :
    layout (d.buffer ++ added turns)
      = ((run turns d).1.flatMap Message.pieces ++ (layout (run turns d).2.buffer).1,
        (layout (run turns d).2.buffer).2) := by
  induction turns generalizing d with
  | nil => rw [added, List.append_nil]; rfl
  | cons turn rest ih =>
    cases turn with
    | add data =>
      rw [added, ← List.append_assoc]
      exact ih (d.add data)
    | next =>
      rw [added, run]
      split
      · exact ih d
      · next m d' hnext =>
        rw [layout_of_next? _ hnext, ih d', List.flatMap_cons, List.append_assoc]

/-- A run loses no byte. -/
theorem flatMap_data_append_run (turns : List Turn) (d : Demux) :
    (run turns d).1.flatMap Message.data ++ (run turns d).2.buffer = d.buffer ++ added turns := by
  induction turns generalizing d with
  | nil => rw [added, List.append_nil]; rfl
  | cons turn rest ih =>
    cases turn with
    | add data =>
      rw [added, ← List.append_assoc]
      exact ih (d.add data)
    | next =>
      rw [added, run]
      split
      · exact ih d
      · next m d' hnext =>
        rw [List.flatMap_cons, List.append_assoc, ih d', ← List.append_assoc,
          data_append_of_next? hnext]

/-- A stream that is read out gives the layout of its bytes. -/
theorem layout_of_readOut (turns : List Turn) :
    layout (added turns)
      = ((readOut turns).1.flatMap Message.pieces, (readOut turns).2.buffer) := by
  have hrun := layout_of_run turns {}
  rw [layout_of_drain (run turns {}).2] at hrun
  rw [readOut, List.flatMap_append]
  exact hrun

theorem flatMap_data_append_readOut (turns : List Turn) :
    (readOut turns).1.flatMap Message.data ++ (readOut turns).2.buffer = added turns := by
  rw [readOut, List.flatMap_append, List.append_assoc, flatMap_data_append_drain]
  exact flatMap_data_append_run turns {}

/-- **How a stream is cut into reads does not show.** Two runs over the same bytes that are read out
in the end find the same frames at the same offsets of the stream, with the same garbage between
them, and leave the same bytes waiting. The messages and the waiting bytes make up the stream, so an
offset is a place in it. -/
theorem readOut_eq_of_added_eq (turns turns' : List Turn) (h : added turns = added turns') :
    frames (readOut turns).1 = frames (readOut turns').1
      ∧ gaps (readOut turns).1 = gaps (readOut turns').1
      ∧ (readOut turns).2.buffer = (readOut turns').2.buffer
      ∧ (readOut turns).1.flatMap Message.data ++ (readOut turns).2.buffer = added turns := by
  have hlayout := layout_of_readOut turns
  rw [h, layout_of_readOut turns', Prod.mk.injEq] at hlayout
  obtain ⟨hpieces, hbuffer⟩ := hlayout
  refine ⟨?_, ?_, hbuffer.symm, flatMap_data_append_readOut turns⟩
  · rw [frames, frames, ← framesFrom_pieces, ← framesFrom_pieces, hpieces]
  · rw [gaps, gaps, ← gapsFrom_pieces, ← gapsFrom_pieces, hpieces]

/-- A stray byte and a frame that is cut by the end of a read. -/
def frameInTwoReads : List Turn :=
  [.add [0x55, 0xb5, 0x62, 0x0a], .next, .next, .add [0x04, 0x00, 0x00, 0x0e, 0x34]]

/-- The same bytes in one read. -/
def frameInOneRead : List Turn := [.add [0x55, 0xb5, 0x62, 0x0a, 0x04, 0x00, 0x00, 0x0e, 0x34]]

theorem readOut_frameInTwoReads :
    added frameInTwoReads = added frameInOneRead
      ∧ frames (readOut frameInTwoReads).1 = frames (readOut frameInOneRead).1
      ∧ gaps (readOut frameInTwoReads).1 = gaps (readOut frameInOneRead).1
      ∧ (readOut frameInTwoReads).2.buffer = (readOut frameInOneRead).2.buffer
      ∧ (readOut frameInTwoReads).1.flatMap Message.data ++ (readOut frameInTwoReads).2.buffer
        = added frameInTwoReads :=
  ⟨rfl, readOut_eq_of_added_eq frameInTwoReads frameInOneRead rfl⟩

end Demux
end GnssLink.Stream
