import LocaleKeys.Text.Pieces
import LocaleKeys.Yaml.Fault

/-!
# The source of a YAML document

A document is read block by block while its tokens are found, so that something wrong with its bytes
or characters counts only when the block that holds it is reached. A source is what can be read,
with the reason why nothing more can.
-/

namespace LocaleKeys

namespace Yaml

def isAllowed (c : Char) : Bool :=
  let n := c.toNat
  n = 0x09 || n = 0x0A || n = 0x0D || (0x20 ≤ n && n ≤ 0x7E) || n = 0x85 ||
    (0xA0 ≤ n && n ≤ 0xD7FF) || (0xE000 ≤ n && n ≤ 0xFFFD) || 0x10000 ≤ n

/-- The characters of a document, and why there are no more of them; none at its end. -/
structure Source where
  chars : List Char
  stop : Option Stop := none

namespace Source

/-- Where the block begins in which the character at position `n` stands. The first block is twice
as long as the others. -/
def blockStart (n : Nat) : Nat := if n < 2 * Utf8.demand then 0 else n / Utf8.demand * Utf8.demand

def upTo (n : Nat) (cs : List Char) (why : Stop) : Source := ⟨cs.take (blockStart n), some why⟩

def ofBytes (bs : Bytes) : Source :=
  let (cs, fault) := Utf8.decodePieces bs
  let unread := fault.map fun f => upTo cs.length cs (.reading f)
  let refused := (cs.zipIdx.find? (!isAllowed ·.1)).map fun (c, n) =>
    upTo n cs (.fault (.character c))
  match unread, refused with
  | none, none => ⟨cs, none⟩
  | some s, none => s
  | none, some s => s
  | some s, some t => if t.chars.length < s.chars.length then t else s

end Source

end Yaml

end LocaleKeys
