import Changelog.Text.Scan

/-!
# Texts as bytes

A text is kept in files as UTF-8.  Reading is strict: the first bytes that are no character end the
reading, and the failure says where they stand and what is wrong with them.
-/

namespace Changelog.Utf8

/-- The bytes of a text. -/
def encode (cs : Text) : List UInt8 :=
  cs.flatMap String.utf8EncodeChar

/-- What is wrong with bytes that are no character. -/
inductive Reason
  /-- No character begins with the byte. -/
  | start
  /-- The bytes begin a character, and the next byte does not go on with it. -/
  | continuation
  /-- The bytes begin a character, and nothing follows them. -/
  | ending
  deriving DecidableEq, Repr

/-- Where reading ended: the first byte that is no part of a character, where it stands, how many
bytes stand there that begin one character, and what is wrong with them. -/
structure Error where
  byte : UInt8
  position : Nat
  length : Nat
  reason : Reason
  deriving DecidableEq, Repr

/-- How many bytes follow the first byte of a character, with the payload of the first byte. -/
def lead? (b : UInt8) : Option (Nat × Nat) :=
  if b < 0x80 then some (0, b.toNat)
  else if b < 0xC2 then none
  else if b < 0xE0 then some (1, b.toNat - 0xC0)
  else if b < 0xF0 then some (2, b.toNat - 0xE0)
  else if b < 0xF5 then some (3, b.toNat - 0xF0)
  else none

/-- Whether a byte may stand second, after the given first byte.  Numbers that a shorter form
writes, surrogates and numbers beyond the last code point are left out. -/
def maySecond (first b : UInt8) : Bool :=
  if first == 0xE0 then 0xA0 ≤ b && b ≤ 0xBF
  else if first == 0xED then 0x80 ≤ b && b ≤ 0x9F
  else if first == 0xF0 then 0x90 ≤ b && b ≤ 0xBF
  else if first == 0xF4 then 0x80 ≤ b && b ≤ 0x8F
  else 0x80 ≤ b && b ≤ 0xBF

/-- Whether a byte may stand third or fourth. -/
def mayFollow (b : UInt8) : Bool :=
  0x80 ≤ b && b ≤ 0xBF

/-- Reads `missing` more bytes of a character whose first `done` bytes write `value`.  The first of
them is tested with `may`. -/
def readRest (may : UInt8 → Bool) : Nat → Nat → Nat → List UInt8 →
    Except (Nat × Reason) (Nat × List UInt8)
  | 0, _, value, bytes => .ok (value, bytes)
  | _ + 1, done, _, [] => .error (done, .ending)
  | missing + 1, done, value, b :: bytes =>
    if may b then readRest mayFollow missing (done + 1) (value * 64 + (b.toNat - 0x80)) bytes
    else .error (done, .continuation)

/-- Reads the character that begins with `first`; the result is the character, how many bytes
follow its first one, and what is left. -/
def readChar (first : UInt8) (bytes : List UInt8) :
    Except (Nat × Reason) (Char × Nat × List UInt8) :=
  match lead? first with
  | none => .error (1, .start)
  | some (missing, value) =>
    (readRest (maySecond first) missing 1 value bytes).map fun r =>
      (Char.ofNat r.1, missing, r.2)

/-- Reads bytes from a position on; `steps` bounds the number of characters. -/
def decodeFrom (position : Nat) : Nat → List UInt8 → Except Error Text
  | _, [] => .ok []
  | 0, _ => .ok []
  | steps + 1, first :: bytes =>
    match readChar first bytes with
    | .error (length, reason) => .error ⟨first, position, length, reason⟩
    | .ok (c, others, rest) => (decodeFrom (position + 1 + others) steps rest).map (c :: ·)

/-- The text that the bytes write. -/
def decode (bytes : List UInt8) : Except Error Text :=
  decodeFrom 0 bytes.length bytes

def Reason.message : Reason → Text
  | .start => "invalid start byte".toList
  | .continuation => "invalid continuation byte".toList
  | .ending => "unexpected end of data".toList

/-- A byte as two hexadecimal digits. -/
def hexByte (b : UInt8) : Text :=
  [Nat.digitChar (b.toNat / 16), Nat.digitChar (b.toNat % 16)]

def Error.message (e : Error) : Text :=
  "'utf-8' codec can't decode byte".toList ++
    (if e.length = 1 then " 0x".toList ++ hexByte e.byte ++ " in position ".toList ++
        Nat.toDigits 10 e.position
      else "s in position ".toList ++ Nat.toDigits 10 e.position ++ '-' ::
        Nat.toDigits 10 (e.position + e.length - 1)) ++
    ": ".toList ++ e.reason.message

end Changelog.Utf8
