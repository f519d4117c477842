import FirewallPolicy.Address.Colon

/-!
Reading addresses and networks where either IP version may stand.

`read` takes a dotted text and refuses all else, with a reason of its own for a valid IPv6 address.
`readNetwork` takes an address with a prefix length, a netmask or a hostmask after a slash; the
length is 32 when there is no slash. A network holds the addresses that agree with the given one in
the leading bits, so bits past the length do not matter.
-/

namespace FirewallPolicy.Address

open Text

inductive Fault where
  /-- A valid address or network of the other version. -/
  | version6
  | notAddress (text : List Char)
  | notNetwork (text : List Char)
  | dotted (fault : DottedFault)
  | tooLarge (value : Nat)
  deriving DecidableEq, Repr

def Fault.message : Fault → String
  | version6 => "IPv6 not supported."
  | notAddress text =>
    String.ofList (quoted text) ++ " does not appear to be an IPv4 or IPv6 address"
  | notNetwork text =>
    String.ofList (quoted text) ++ " does not appear to be an IPv4 or IPv6 network"
  | dotted fault => fault.message
  | tooLarge value => s!"{value} (>= 2**32) is not permitted as an IPv4 address"

def ofNat (n : Nat) : Except Fault Address :=
  if h : n < UInt32.size then .ok ⟨n, h⟩ else .error (.tooLarge n)

def ofDotted (s : List Char) : Except Fault Address :=
  match readDotted s with
  | .ok a => .ok a
  | .error fault => .error (.dotted fault)

def read (s : List Char) : Except Fault Address :=
  match readDotted s with
  | .ok a => .ok a
  | .error _ => .error (if isColonAddress s then .version6 else .notAddress s)

/-! ## Prefix lengths -/

def readLength (max : Nat) (s : List Char) : Option Nat :=
  if s.isEmpty || !s.all Char.isDigit || s.length > Numeral.maxDigits then none
  else
    let n := decimalValue s
    if n ≤ max then some n else none

def netmask (length : Nat) : Nat := UInt32.size - Nat.pow 2 (32 - length)

def hostmask (length : Nat) : Nat := Nat.pow 2 (32 - length) - 1

/-- The prefix length that a mask stands for. A number that is both kinds of mask is a netmask. -/
def lengthOfMask (mask : Nat) : Option Nat :=
  let lengths := List.range 33
  (lengths.find? (netmask · == mask)).or (lengths.find? (hostmask · == mask))

def readMask (s : List Char) : Option Nat :=
  (readLength 32 s).or <|
    match readDotted s with
    | .error _ => none
    | .ok mask => lengthOfMask mask.value

/-! ## Networks -/

structure Network where
  address : Address
  length : Nat
  deriving DecidableEq, Repr

namespace Network

def size (n : Network) : Nat := Nat.pow 2 (32 - n.length)

def first (n : Network) : Nat := n.address.value - n.address.value % n.size

def last (n : Network) : Nat := n.first + (n.size - 1)

end Network

def isColonNetwork (s : List Char) : Bool :=
  match split ['/'] s with
  | [address] => isColonAddress address
  | [address, length] => isColonAddress address && (readLength 128 length).isSome
  | _ => false

def dottedNetwork? (s : List Char) : Option Network :=
  match split ['/'] s with
  | [address] => (readDotted address).toOption.map (⟨·, 32⟩)
  | [address, mask] => do
    let a ← (readDotted address).toOption
    let length ← readMask mask
    return ⟨a, length⟩
  | _ => none

def readNetwork (s : List Char) : Except Fault Network :=
  match dottedNetwork? s with
  | some n => .ok n
  | none => .error (if isColonNetwork s then .version6 else .notNetwork s)

end FirewallPolicy.Address
