import FirewallPolicy.Address.Dotted

/-!
Recognising the text of an IPv6 address.

Rules speak of IPv4 only, but a text that is a valid IPv6 address is refused with a reason of its
own, so it has to be told from nonsense. Eight groups of one to four hexadecimal digits stand
between colons; a double colon stands for one or more groups that are left out; a dotted IPv4
text may stand for the last two groups; a scope may follow after a percent sign.
-/

namespace FirewallPolicy.Address

open Text

def isHexDigit (c : Char) : Bool :=
  c.isDigit || ('a' ≤ c && c ≤ 'f') || ('A' ≤ c && c ≤ 'F')

def isGroup (s : List Char) : Bool := !s.isEmpty && s.length ≤ 4 && s.all isHexDigit

/-- The groups with a dotted text at the end replaced by the two groups it stands for. -/
def expandDotted (parts : List (List Char)) : Option (List (List Char)) :=
  match parts.getLast? with
  | none => some parts
  | some last =>
    if !last.contains '.' then some parts
    else match readDotted last with
      | .error _ => none
      | .ok _ => some (parts.dropLast ++ [['0'], ['0']])

/-- The groups on one side of a double colon: a side with nothing on it has none. -/
def sideOfGap : List (List Char) → List (List Char)
  | [[]] => []
  | groups => groups

/-- Whether the groups between colons make an address: either all eight are there, or at most
seven around one gap. -/
def areGroups : List (List Char) → Bool
  | [] => false
  | first :: rest =>
    match rest.dropWhile (!·.isEmpty) with
    | [] :: after@(_ :: _) =>
      let before := sideOfGap (first :: rest.takeWhile (!·.isEmpty))
      let after := sideOfGap after
      before.length + after.length ≤ 7 && before.all isGroup && after.all isGroup
    | _ => rest.length + 1 == 8 && (first :: rest).all isGroup

def withoutScope (s : List Char) : Option (List Char) :=
  match splitOnce '%' s with
  | none => some s
  | some (address, scope) =>
    if scope.isEmpty || scope.contains '%' then none else some address

/-- Whether the text is a valid IPv6 address. -/
def isColonAddress (s : List Char) : Bool :=
  !s.contains '/' &&
    match withoutScope s with
    | none => false
    | some address => (expandDotted (split [':'] address)).any areGroups

end FirewallPolicy.Address
