/-!
IPv4 addresses as numbers, and their dotted text.

An address is a number below 2^32. Its four octets are its digits in base 256, and its text is the
four octets in decimal between dots. `ofOctets_octets`: the octets determine the address.
-/

namespace FirewallPolicy

structure Address where
  value : Nat
  value_lt : value < UInt32.size
  deriving DecidableEq, Repr

namespace Address

instance : Inhabited Address := ⟨⟨0, by decide⟩⟩

/-- The four octets, the highest first. -/
def octets (a : Address) : List Nat :=
  [a.value >>> 24, a.value >>> 16 % 256, a.value >>> 8 % 256, a.value % 256]

def ofOctets (octets : List Nat) : Nat := octets.foldl (fun n o => 256 * n + o) 0

theorem ofOctets_octets (a : Address) : ofOctets a.octets = a.value := by
  simp only [ofOctets, octets, List.foldl_cons, List.foldl_nil]
  omega

theorem octets_lt (a : Address) : ∀ o ∈ a.octets, o < 256 := by
  have : a.value < 4294967296 := a.value_lt
  simp only [octets, List.mem_cons, List.not_mem_nil, or_false]
  omega

def text (a : Address) : String := ".".intercalate (a.octets.map fun o => toString o)

end Address

end FirewallPolicy
