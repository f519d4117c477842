import FirewallPolicy.Address.Network
import FirewallPolicy.Formula.Basic
import FirewallPolicy.Text.Utf8

/-!
Values that are refused, and the words they are refused with.

`Invalid` lists the causes: a number outside the range of its quantity, a variable of another width,
a text that is no number, address, port or action, and data that cannot be cut into columns or
characters. `Invalid.message` is the wording. A cause that speaks of a number with more digits than
are written has no wording; what is refused then is only that number (`Invalid.worded`).
-/

namespace FirewallPolicy

inductive Quantity where
  | address
  | port
  | protocol
  deriving DecidableEq, Repr

namespace Quantity

def width : Quantity → Nat
  | address => 32
  | port => 16
  | protocol => 8

def maximum (q : Quantity) : Nat := Nat.pow 2 q.width - 1

def word : Quantity → String
  | address => "Address"
  | port => "Port"
  | protocol => "Protocol"

end Quantity

inductive Invalid where
  | outOfBounds (quantity : Quantity) (value : Int)
  | widthMismatch (field : Variable) (expected : Int)
  | valueTooWide (field : Variable) (value : Int)
  | negativeWidth
  | numeral (fault : Text.Numeral.Error)
  | address (fault : Address.Fault)
  | unsupportedProtocol (token : String)
  | emptyPort
  | portMacro (name : String)
  | unknownAction (word : String)
  | emptySeparator
  | undecodable (fault : Text.Utf8.Error)
  | negativeLimit (limit : Int)
  /-- A number that a message should hold has too many digits. -/
  | unwritable
  deriving DecidableEq, Repr

namespace Text.Utf8

def Fault.message : Fault → String
  | startByte => "invalid start byte"
  | continuationByte => "invalid continuation byte"
  | endOfData => "unexpected end of data"

/-- One byte is named by its value, more by where they stand. -/
def Error.message (e : Error) : String :=
  let place :=
    if e.length = 1 then
      s!"byte 0x{String.ofList (hexDigits 2 e.first.toNat)} in position {e.position}"
    else s!"bytes in position {e.position}-{e.position + e.length - 1}"
  s!"'utf-8' codec can't decode {place}: {e.fault.message}"

end Text.Utf8

def Invalid.message : Invalid → String
  | outOfBounds quantity value => s!"{quantity.word} {value} is outside 0..{quantity.maximum}"
  | widthMismatch field expected =>
    s!"Variable {field.name} is {field.width} bits wide, expected {expected}"
  | valueTooWide field value =>
    s!"Value {value} does not fit in {field.width}-bit variable {field.name}"
  | negativeWidth => "negative shift count"
  | numeral fault => fault.message
  | address fault => fault.message
  | unsupportedProtocol token => s!"Unsupported protocol token: {token}"
  | emptyPort => "Port is null or empty."
  | portMacro name => s!"Port macros are not supported: {name}"
  | unknownAction word => s!"Invalid rule action: {word}"
  | emptySeparator => "empty separator"
  | undecodable fault => fault.message
  | negativeLimit limit => s!"limit must be non-negative, got {limit}"
  | unwritable =>
    s!"Exceeds the limit ({Text.Numeral.maxDigits} digits) for integer string conversion; " ++
      "use sys.set_int_max_str_digits() to increase the limit"

def Invalid.numbers : Invalid → List Int
  | outOfBounds _ value => [value]
  | widthMismatch field expected => [field.width, expected]
  | valueTooWide field value => [value, field.width]
  | negativeLimit limit => [limit]
  | _ => []

/-- What a value is refused for once the message is made. -/
def Invalid.worded (cause : Invalid) : Invalid :=
  if ∀ n ∈ cause.numbers, Text.Numeral.Writable n then cause else unwritable

def Invalid.ofAddress {α : Type} : Except Address.Fault α → Except Invalid α
  | .ok x => .ok x
  | .error fault => .error (.address fault)

def Invalid.ofNumeral {α : Type} : Except Text.Numeral.Error α → Except Invalid α
  | .ok x => .ok x
  | .error fault => .error (.numeral fault)

namespace Variable

def maxValue (v : Variable) : Except Invalid Nat :=
  if v.width < 0 then .error .negativeWidth else .ok (v.modulus - 1)

def checkWidth (v : Variable) (expected : Int) : Except Invalid Unit :=
  if v.width = expected then .ok () else .error (.worded (.widthMismatch v expected))

/-- A value fits if it is at least zero and at most the largest; a value below zero is refused
before the width is looked at. -/
def checkValue (v : Variable) (value : Int) : Except Invalid Unit :=
  if value < 0 then .error (.worded (.valueTooWide v value))
  else do
    let max ← v.maxValue
    if value ≤ max then .ok () else .error (.worded (.valueTooWide v value))

end Variable

end FirewallPolicy
