import FirewallPolicy.Address.Basic
import FirewallPolicy.Text.Numeral
import FirewallPolicy.Text.Quoted
import FirewallPolicy.Text.Split

/-!
Reading the dotted text of an address.

Exactly four octets stand between dots, each of one to three digits 0 to 9, without a leading
zero, at most 255. The first fault is reported: a slash, an empty text, a wrong number of octets,
then the first bad octet.
-/

namespace FirewallPolicy.Address

open Text

inductive OctetFault where
  | empty
  | notDigits (octet : List Char)
  | tooLong (octet : List Char)
  | leadingZero (octet : List Char)
  | tooLarge (value : Nat)
  deriving DecidableEq, Repr

def OctetFault.message : OctetFault → String
  | empty => "Empty octet not permitted"
  | notDigits octet => "Only decimal digits permitted in " ++ String.ofList (quoted octet)
  | tooLong octet => "At most 3 characters permitted in " ++ String.ofList (quoted octet)
  | leadingZero octet => "Leading zeros are not permitted in " ++ String.ofList (quoted octet)
  | tooLarge value => s!"Octet {value} (> 255) not permitted"

inductive DottedFault where
  | slash (text : List Char)
  | empty
  | count (text : List Char)
  | octet (fault : OctetFault) (text : List Char)
  deriving DecidableEq, Repr

def DottedFault.message : DottedFault → String
  | slash text => "Unexpected '/' in " ++ String.ofList (quoted text)
  | empty => "Address cannot be empty"
  | count text => "Expected 4 octets in " ++ String.ofList (quoted text)
  | octet fault text => fault.message ++ " in " ++ String.ofList (quoted text)

def decimalValue (digits : List Char) : Nat :=
  digits.foldl (fun n c => 10 * n + (c.toNat - 48)) 0

def readOctet (octet : List Char) : Except OctetFault Nat :=
  if octet.isEmpty then .error .empty
  else if !octet.all Char.isDigit then .error (.notDigits octet)
  else if octet.length > 3 then .error (.tooLong octet)
  else if octet != ['0'] && octet.head? == some '0' then .error (.leadingZero octet)
  else
    let value := decimalValue octet
    if value > 255 then .error (.tooLarge value) else .ok value

def readOctets : List (List Char) → Except OctetFault (List Nat)
  | [] => .ok []
  | octet :: rest => do
    let value ← readOctet octet
    let more ← readOctets rest
    return value :: more

def readDotted (s : List Char) : Except DottedFault Address :=
  if s.contains '/' then .error (.slash s)
  else if s.isEmpty then .error .empty
  else
    let parts := split ['.'] s
    if parts.length ≠ 4 then .error (.count s)
    else match readOctets parts with
      | .error fault => .error (.octet fault s)
      | .ok values =>
        if h : ofOctets values < UInt32.size then .ok ⟨ofOctets values, h⟩ else .error (.count s)

end FirewallPolicy.Address
