import LocaleKeys.Text.Utf8

/-!
# UTF-8 in pieces

A long file is decoded piece by piece. A character may be cut between two pieces, and so may a line
end of two characters; what is pending at the end of a piece is carried to the next one. The
positions in a fault count from the bytes that are carried to the piece at fault.
-/

namespace LocaleKeys

namespace Utf8

/-- The least number of bytes of a piece. -/
def pieceSize : Nat := 8192

def demand : Nat := 4096

/-- What is pending between two pieces: the first bytes of a character, and whether a carriage
return waits for its line feed. -/
structure Pending where
  bytes : Bytes := []
  hasReturn : Bool := false

/-- The characters of bytes, and the bytes at their end that only begin a character. -/
def decodeBegun (bs : Bytes) : Except DecodeFault (List Char × Bytes) :=
  match decode bs with
  | .ok cs => .ok (cs, [])
  | .error f =>
      if f.reason = .endOfData then (decode (bs.take f.first)).map (·, bs.drop f.first)
      else .error f

/-- The bytes of a piece with those pending before it; an empty piece is the last one, and leaves
nothing pending. -/
def decodePiece (pending : Pending) (piece : Bytes) :
    Except DecodeFault (List Char × Pending) := do
  let isLast := piece.isEmpty
  let (cs, begun) ←
    if isLast then (decode pending.bytes).map (·, [])
    else decodeBegun (pending.bytes ++ piece)
  let cs := if pending.hasReturn then '\r' :: cs else cs
  let hasReturn := !isLast && cs.getLast? = some '\r'
  return (Text.universalLines (if hasReturn then cs.dropLast else cs), ⟨begun, hasReturn⟩)

/-- How many bytes the piece after `piece` has: as many as seem to hold the characters that are
missing from what a reader asks for, if `piece` held `chars` of the `read` ones. -/
def nextSize (read chars : Nat) (piece : Bytes) : Nat :=
  max pieceSize ((demand - read % demand) * piece.length / chars)

def piecesFrom :
    (fuel : Nat) → Pending → (read size : Nat) → Bytes → List Char × Option DecodeFault
  | 0, _, _, _, _ => ([], none)
  | fuel + 1, pending, read, size, bs =>
      let piece := bs.take size
      match decodePiece pending piece with
      | .error f => ([], some f)
      | .ok (cs, pending) =>
          if piece.isEmpty then (cs, none)
          else
            let read := read + cs.length
            let (rest, fault) :=
              piecesFrom fuel pending read (nextSize read cs.length piece) (bs.drop size)
            (cs ++ rest, fault)

def decodePieces (bs : Bytes) : List Char × Option DecodeFault :=
  piecesFrom (bs.length + 1) {} 0 pieceSize bs

end Utf8

end LocaleKeys
