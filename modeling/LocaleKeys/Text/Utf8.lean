import LocaleKeys.Text.Basic
import LocaleKeys.Number.Digits

/-!
# UTF-8

Texts as bytes. Reading is strict and reports the first place where the bytes are not UTF-8: the
lead byte when it cannot start a character, the part read so far when the next byte cannot continue
it, and everything that is left when the bytes end inside a character. Writing refuses lone
surrogates and reports the first run of them.
-/

namespace LocaleKeys

abbrev Bytes := List UInt8

namespace Utf8

inductive Reason where
  | startByte
  | continuationByte
  | endOfData
deriving DecidableEq, Repr

def Reason.message : Reason → Text
  | startByte => "invalid start byte"
  | continuationByte => "invalid continuation byte"
  | endOfData => "unexpected end of data"

/-- Where and why reading bytes fails: the positions of the first and the last byte concerned, and
the first byte itself. -/
structure DecodeFault where
  first : Nat
  last : Nat
  byte : UInt8
  reason : Reason
deriving DecidableEq, Repr

def DecodeFault.message (f : DecodeFault) : Text :=
  if f.first = f.last then
    "'utf-8' codec can't decode byte 0x" ++ Text.hex 2 f.byte.toNat ++ " in position " ++
      Text.ofNat f.first ++ ": " ++ f.reason.message
  else
    "'utf-8' codec can't decode bytes in position " ++ Text.ofNat f.first ++ "-" ++
      Text.ofNat f.last ++ ": " ++ f.reason.message

/-- The number of bytes that a lead byte announces; zero if it cannot start a character. -/
def announced (b : UInt8) : Nat :=
  if b < 0x80 then 1
  else if b < 0xC2 then 0
  else if b < 0xE0 then 2
  else if b < 0xF0 then 3
  else if b < 0xF5 then 4
  else 0

def isContinuation (b : UInt8) : Bool := 0x80 ≤ b && b ≤ 0xBF

/-- Whether a byte may follow the lead byte `b₀`: a continuation byte that makes the character
neither overlong, nor a surrogate, nor larger than U+10FFFF. -/
def maySecond (b₀ b₁ : UInt8) : Bool :=
  isContinuation b₁ &&
    (if b₀ = 0xE0 then 0xA0 ≤ b₁
     else if b₀ = 0xED then b₁ < 0xA0
     else if b₀ = 0xF0 then 0x90 ≤ b₁
     else if b₀ = 0xF4 then b₁ < 0x90
     else true)

def payload (b : UInt8) : Nat := b.toNat % 64

def char₂ (b₀ b₁ : UInt8) : Char := Char.ofNat (b₀.toNat % 32 * 64 + payload b₁)

def char₃ (b₀ b₁ b₂ : UInt8) : Char :=
  Char.ofNat ((b₀.toNat % 16 * 64 + payload b₁) * 64 + payload b₂)

def char₄ (b₀ b₁ b₂ b₃ : UInt8) : Char :=
  Char.ofNat (((b₀.toNat % 8 * 64 + payload b₁) * 64 + payload b₂) * 64 + payload b₃)

def decodeAt (pos : Nat) : Bytes → Except DecodeFault (List Char)
  | [] => .ok []
  | b₀ :: rest =>
      let fault (n : Nat) (r : Reason) : Except DecodeFault (List Char) :=
        .error ⟨pos, pos + n, b₀, r⟩
      match announced b₀, rest with
      | 0, _ => fault 0 .startByte
      | 1, r => (decodeAt (pos + 1) r).map (Char.ofNat b₀.toNat :: ·)
      | _, [] => fault 0 .endOfData
      | 2, b₁ :: r =>
          if maySecond b₀ b₁ then (decodeAt (pos + 2) r).map (char₂ b₀ b₁ :: ·)
          else fault 0 .continuationByte
      | _, [b₁] => if maySecond b₀ b₁ then fault 1 .endOfData else fault 0 .continuationByte
      | 3, b₁ :: b₂ :: r =>
          if !maySecond b₀ b₁ then fault 0 .continuationByte
          else if isContinuation b₂ then (decodeAt (pos + 3) r).map (char₃ b₀ b₁ b₂ :: ·)
          else fault 1 .continuationByte
      | _, [b₁, b₂] =>
          if !maySecond b₀ b₁ then fault 0 .continuationByte
          else if isContinuation b₂ then fault 2 .endOfData
          else fault 1 .continuationByte
      | _, b₁ :: b₂ :: b₃ :: r =>
          if !maySecond b₀ b₁ then fault 0 .continuationByte
          else if !isContinuation b₂ then fault 1 .continuationByte
          else if isContinuation b₃ then (decodeAt (pos + 4) r).map (char₄ b₀ b₁ b₂ b₃ :: ·)
          else fault 2 .continuationByte

def decode (bs : Bytes) : Except DecodeFault (List Char) := decodeAt 0 bs

/-- Where writing a text fails: the positions of the first and the last of a run of lone surrogates,
and the first of them. -/
structure EncodeFault where
  first : Nat
  last : Nat
  surrogate : Fin 2048
deriving DecidableEq, Repr

def EncodeFault.message (f : EncodeFault) : Text :=
  if f.first = f.last then
    "'utf-8' codec can't encode character '\\u" ++ Text.hex 4 (0xD800 + f.surrogate.val) ++
      "' in position " ++ Text.ofNat f.first ++ ": surrogates not allowed"
  else
    "'utf-8' codec can't encode characters in position " ++ Text.ofNat f.first ++ "-" ++
      Text.ofNat f.last ++ ": surrogates not allowed"

def encodeAt (pos : Nat) : Text → Except EncodeFault Bytes
  | [] => .ok []
  | .scalar c :: t => (encodeAt (pos + 1) t).map (String.utf8EncodeChar c ++ ·)
  | .surrogate u :: t => .error ⟨pos, pos + (t.takeWhile (!·.isScalar)).length, u⟩

def encode (t : Text) : Except EncodeFault Bytes := encodeAt 0 t

def encodeChars (cs : List Char) : Bytes := cs.flatMap String.utf8EncodeChar

end Utf8

namespace Text

def universalLines : List Char → List Char
  | [] => []
  | '\r' :: '\n' :: t => '\n' :: universalLines t
  | '\r' :: t => '\n' :: universalLines t
  | c :: t => c :: universalLines t

end Text

end LocaleKeys
