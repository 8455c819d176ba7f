import PlatformRoutes.Yaml.Source

namespace PlatformRoutes.Yaml

/-- Where a decoder of UTF-8 stands between two bytes: how many bytes it is owed, what the next one has
to lie between then, and the bits of the character so far. -/
structure Decoder where
  owed : Nat
  least : Nat
  greatest : Nat
  bits : Nat
  deriving DecidableEq

namespace Decoder

/-- The decoder is owed bytes, of which any may be next that goes on with a character. -/
def owing (owed bits : Nat) : Decoder := ⟨owed, 0x80, 0xBF, bits⟩

def start : Decoder := owing 0 0

/-- The first byte of a character tells how many follow. After some of them the second byte is
restricted, for the shortest form to be the only one and for the halves of pairs to have none. -/
def first? (b : Nat) : Option Decoder :=
  if b ≤ 0x7F then some (owing 0 b)
  else if b < 0xC2 then none
  else if b ≤ 0xDF then some (owing 1 (b - 0xC0))
  else if b == 0xE0 then some ⟨2, 0xA0, 0xBF, 0⟩
  else if b == 0xED then some ⟨2, 0x80, 0x9F, b - 0xE0⟩
  else if b ≤ 0xEF then some (owing 2 (b - 0xE0))
  else if b == 0xF0 then some ⟨3, 0x90, 0xBF, 0⟩
  else if b ≤ 0xF3 then some (owing 3 (b - 0xF0))
  else if b == 0xF4 then some ⟨3, 0x80, 0x8F, b - 0xF0⟩
  else none

def next? (d : Decoder) (b : Nat) : Option Decoder :=
  if d.owed = 0 then first? b
  else if d.least ≤ b && b ≤ d.greatest then some (owing (d.owed - 1) (d.bits * 64 + (b - 0x80)))
  else none

/-- The characters that some bytes complete, and the decoder after them. A byte that no text has
there is refused. -/
def decode (d : Decoder) : List UInt8 → Option (List Char × Decoder)
  | [] => some ([], d)
  | b :: rest => do
    let d ← d.next? b.toNat
    let (cs, last) ← d.decode rest
    return (if d.owed = 0 then .ofNat d.bits :: cs else cs, last)

end Decoder

/-- Only characters that can be printed stand in a document. -/
def isPrintable (c : Char) : Bool :=
  let n := c.toNat
  n == 9 || n == 10 || n == 13 || (0x20 ≤ n && n ≤ 0x7E) || n == 0x85 || (0xA0 ≤ n && n ≤ 0xFFFD) ||
    0x10000 ≤ n

/-- Line breaks of every platform become line feeds. -/
def lineFeeds : List Char → List Char
  | '\r' :: '\n' :: rest => '\n' :: lineFeeds rest
  | '\r' :: rest => '\n' :: lineFeeds rest
  | c :: rest => c :: lineFeeds rest
  | [] => []

/-- A carriage return at the end waits for what follows it, as a line feed would belong to it. -/
def withheld (cs : List Char) : List Char × List Char :=
  if cs.getLast? == some '\r' then (cs.dropLast, ['\r']) else (cs, [])

/-- A file that is being read. Its bytes are decoded piece by piece, as characters are asked for. -/
structure Stream where
  bytes : List UInt8
  decoder : Decoder
  /-- What waits for the next piece. -/
  held : List Char
  ready : List Char
  /-- How many bytes the last piece had, and how many characters it gave. -/
  pieceBytes : Nat
  pieceChars : Nat

namespace Stream

def ofBytes (bytes : List UInt8) : Stream := ⟨bytes, .start, [], [], 0, 0⟩

/-- Decodes some bytes more. -/
def decode (s : Stream) (size : Nat) : Except Fault Stream :=
  match s.decoder.decode (s.bytes.take size) with
  | none => .error .undecodable
  | some (cs, decoder) =>
    let shown := lineFeeds (withheld (s.held ++ cs)).1
    .ok
      { bytes := s.bytes.drop size, decoder, held := (withheld (s.held ++ cs)).2,
        ready := s.ready ++ shown, pieceBytes := (s.bytes.take size).length,
        pieceChars := shown.length }

/-- Where there are no more bytes, nothing may be owed. -/
def finish (s : Stream) : Except Fault Stream :=
  if s.decoder.owed = 0 then .ok { s with held := [], ready := s.ready ++ lineFeeds s.held }
  else .error .undecodable

/-- How many bytes are decoded at a time at least. -/
def leastPiece : Nat := 8192

/-- How many bytes make the next piece: as many as the missing characters take, if they take as much
as those of the last piece did. -/
def pieceSize (s : Stream) (missing : Nat) : Nat :=
  max leastPiece (s.pieceBytes * missing / s.pieceChars)

/-- Decodes until enough characters are ready, or all are. -/
def fill (wanted : Nat) : Nat → Stream → Except Fault Stream
  | 0, s => .ok s
  | fuel + 1, s =>
    if wanted ≤ s.ready.length then .ok s
    else if s.bytes.isEmpty then s.finish
    else do fill wanted fuel (← s.decode (s.pieceSize (wanted - s.ready.length)))

/-- How many characters are asked for at a time. -/
def readSize : Nat := 4096

def read (s : Stream) : Except Fault (List Char × Stream) := do
  let s ← s.fill readSize (s.bytes.length + 1)
  return (s.ready.take readSize, { s with ready := s.ready.drop readSize })

/-- What some reads give together. -/
def reads : Nat → Stream → Except Fault (List Char × Stream)
  | 0, s => .ok ([], s)
  | n + 1, s => do
    let (cs, s) ← s.read
    let (more, s) ← reads n s
    return (cs ++ more, s)

/-- What can be had of the text, load by load, and why there is no more of it unless it ends. The
first load takes some reads, every other one takes one. -/
def loads : Nat → Nat → Stream → List Char × Option Fault
  | 0, _, _ => ([], none)
  | fuel + 1, n, s =>
    match s.reads n with
    | .error fault => ([], some fault)
    | .ok ([], _) => ([], none)
    | .ok (cs, s) =>
      if cs.all isPrintable then
        let (more, stop) := loads fuel 1 s
        (cs ++ more, stop)
      else ([], some .malformed)

end Stream

/-- The text of a file. Before anything of it is looked at, two reads are made. -/
def Source.ofBytes (bytes : ByteArray) : Source :=
  let (cs, stop) := (Stream.ofBytes bytes.data.toList).loads (bytes.size + 2) 2
  .start cs stop

end PlatformRoutes.Yaml
