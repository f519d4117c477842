/-!
Strict UTF-8.

A text is one to four bytes a character, in the shortest form, without surrogates. The first
place where that fails is reported with the bytes that were read of the broken character: a byte
that starts nothing, a continuation that is none, or an end of the data inside a character.
-/

namespace FirewallPolicy.Text.Utf8

inductive Fault where
  | startByte
  | continuationByte
  | endOfData
  deriving DecidableEq, Repr

/-- Where decoding fails: the position, the bytes of the broken character, and why. -/
structure Error where
  position : Nat
  first : UInt8
  length : Nat
  fault : Fault
  deriving DecidableEq, Repr

def isContinuation (b : UInt8) : Bool := 0x80 ≤ b && b < 0xC0

def payload (b : UInt8) : Nat := b.toNat % 64

/-- The second bytes that may follow a first byte of three or four: they rule out longer forms
than needed, surrogates, and numbers past the last character. -/
def secondFits (a b : UInt8) : Bool :=
  isContinuation b &&
    if a == 0xE0 then 0xA0 ≤ b
    else if a == 0xED then b < 0xA0
    else if a == 0xF0 then 0x90 ≤ b
    else if a == 0xF4 then b < 0x90
    else true

def decodeFrom (position : Nat) : List UInt8 → Except Error (List Char)
  | [] => .ok []
  | a :: rest =>
    let fail (length : Nat) (fault : Fault) : Except Error (List Char) :=
      .error ⟨position, a, length, fault⟩
    if a < 0x80 then do
      let more ← decodeFrom (position + 1) rest
      return Char.ofNat a.toNat :: more
    else if a < 0xC2 then fail 1 .startByte
    else if a < 0xE0 then
      match rest with
      | [] => fail 1 .endOfData
      | b :: rest =>
        if isContinuation b then do
          let more ← decodeFrom (position + 2) rest
          return Char.ofNat (a.toNat % 32 * 64 + payload b) :: more
        else fail 1 .continuationByte
    else if a < 0xF0 then
      match rest with
      | [] => fail 1 .endOfData
      | [b] => if secondFits a b then fail 2 .endOfData else fail 1 .continuationByte
      | b :: c :: rest =>
        if !secondFits a b then fail 1 .continuationByte
        else if !isContinuation c then fail 2 .continuationByte
        else do
          let more ← decodeFrom (position + 3) rest
          return Char.ofNat (a.toNat % 16 * 4096 + payload b * 64 + payload c) :: more
    else if a < 0xF5 then
      match rest with
      | [] => fail 1 .endOfData
      | [b] => if secondFits a b then fail 2 .endOfData else fail 1 .continuationByte
      | [b, c] =>
        if !secondFits a b then fail 1 .continuationByte
        else if isContinuation c then fail 3 .endOfData
        else fail 2 .continuationByte
      | b :: c :: d :: rest =>
        if !secondFits a b then fail 1 .continuationByte
        else if !isContinuation c then fail 2 .continuationByte
        else if !isContinuation d then fail 3 .continuationByte
        else do
          let more ← decodeFrom (position + 4) rest
          return Char.ofNat
            (a.toNat % 8 * 262144 + payload b * 4096 + payload c * 64 + payload d) :: more
    else fail 1 .startByte

def decode (bytes : List UInt8) : Except Error (List Char) := decodeFrom 0 bytes

end FirewallPolicy.Text.Utf8
