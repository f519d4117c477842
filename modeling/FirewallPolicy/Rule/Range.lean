import FirewallPolicy.Invalid

/-!
Ranges of addresses and ports, and the sets that rules are made of.

A range holds the numbers between two bounds that fit its quantity. A range whose lower bound
exceeds the upper one is legal and holds nothing. A set holds everything or the numbers of its
ranges; it keeps its ranges even when it holds everything.
-/

namespace FirewallPolicy

/-- The numbers from `low` to `high`. -/
structure Range (q : Quantity) where
  low : Nat
  high : Nat
  low_le : low ≤ q.maximum
  high_le : high ≤ q.maximum
  deriving DecidableEq, Repr

def Quantity.check (q : Quantity) (value : Int) : Except Invalid { n : Nat // n ≤ q.maximum } :=
  if h : 0 ≤ value ∧ value ≤ q.maximum then .ok ⟨value.toNat, by omega⟩
  else .error (.worded (.outOfBounds q value))

namespace Range

variable {q : Quantity}

/-- The range of two bounds, the lower checked first. -/
def ofBounds (q : Quantity) (low high : Int) : Except Invalid (Range q) := do
  let l ← q.check low
  let h ← q.check high
  return ⟨l.1, h.1, l.2, h.2⟩

def single (q : Quantity) (value : Int) : Except Invalid (Range q) := ofBounds q value value

def full (q : Quantity) : Range q := ⟨0, q.maximum, by omega, by omega⟩

def ofAddresses (low high : Address) : Range .address :=
  ⟨low.value, high.value, Nat.le_sub_one_of_lt low.value_lt, Nat.le_sub_one_of_lt high.value_lt⟩

def ofAddress (a : Address) : Range .address := ofAddresses a a

def ofNetwork (n : Address.Network) : Except Invalid (Range .address) :=
  ofBounds .address n.first n.last

def Contains (r : Range q) (x : Nat) : Prop := r.low ≤ x ∧ x ≤ r.high

instance (r : Range q) (x : Nat) : Decidable (r.Contains x) :=
  inferInstanceAs (Decidable (_ ∧ _))

def contains (r : Range q) (v : Variable) : Except Invalid Formula := do
  v.checkWidth q.width
  return .inRange v r.low r.high

end Range

def Quantity.numberText (q : Quantity) (n : Nat) (h : n ≤ q.maximum) : String :=
  match q with
  | .address => (Address.mk n (Nat.lt_of_le_sub_one (by decide) h)).text
  | _ => toString n

/-- One number, or two with a dash between them. -/
def Range.text {q : Quantity} (r : Range q) : String :=
  if r.low = r.high then q.numberText r.low r.low_le
  else q.numberText r.low r.low_le ++ "-" ++ q.numberText r.high r.high_le

/-- Everything, or the numbers of some ranges. -/
structure ValueSet (q : Quantity) where
  everything : Bool
  ranges : List (Range q)
  deriving DecidableEq, Repr

namespace ValueSet

variable {q : Quantity}

def all : ValueSet q := ⟨true, []⟩

def ofRanges (ranges : List (Range q)) : ValueSet q := ⟨false, ranges⟩

def Contains (s : ValueSet q) (x : Nat) : Prop := s.everything = true ∨ ∃ r ∈ s.ranges, r.Contains x

instance (s : ValueSet q) (x : Nat) : Decidable (s.Contains x) :=
  inferInstanceAs (Decidable (_ ∨ _))

def contains (s : ValueSet q) (v : Variable) : Except Invalid Formula :=
  if s.everything then .ok (.const true)
  else do
    let parts ← s.ranges.mapM (·.contains v)
    return .disjunction parts

end ValueSet

end FirewallPolicy
