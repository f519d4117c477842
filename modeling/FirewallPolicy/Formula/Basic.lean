/-!
Boolean formulas over the fields of a packet.

A field is a named variable of a fixed number of bits. A formula compares fields with
constants and combines the comparisons. `hole` is a formula with nothing in it: it can be
built and passed around, but it has no meaning, and a solver refuses a formula that has one.

`conjunction` and `disjunction` of no parts are the constants; the constructors `all` and `any`
keep an empty list as it is. Formulas are compared by `same`, which is equality (`same_iff`).
-/

namespace FirewallPolicy

/-- An unsigned field of a packet. Two variables are one only if name and width agree. -/
structure Variable where
  name : String
  width : Int
  deriving DecidableEq, Repr

namespace Variable

def modulus (v : Variable) : Nat := Nat.pow 2 v.width.toNat

/-- The value that an integer constant stands for when it is compared with the field. A constant
that fits stands for itself, which its bits show without a division. -/
def residue (v : Variable) : Int → Nat
  | .ofNat n => if n >>> v.width.toNat = 0 then n else n % v.modulus
  | c => (c % (v.modulus : Int)).toNat

theorem modulus_pos (v : Variable) : 0 < v.modulus := Nat.pow_pos (by decide)

theorem residue_eq (v : Variable) (c : Int) : v.residue c = (c % (v.modulus : Int)).toNat := by
  cases c with
  | negSucc n => rfl
  | ofNat n =>
    have hmod : ((n : Int) % (v.modulus : Int)).toNat = n % v.modulus := by
      rw [← Int.natCast_emod, Int.toNat_natCast]
    show (if n >>> v.width.toNat = 0 then n else n % v.modulus) = _
    rw [Int.ofNat_eq_natCast, hmod]
    split
    · rename_i h
      rw [Nat.shiftRight_eq_div_pow] at h
      have hlt : n < v.modulus := Nat.lt_of_div_eq_zero v.modulus_pos h
      exact (Nat.mod_eq_of_lt hlt).symm
    · rfl

theorem residue_lt (v : Variable) (c : Int) : v.residue c < v.modulus := by
  have hm : (0 : Int) < (v.modulus : Int) := by exact_mod_cast v.modulus_pos
  have h0 := Int.emod_nonneg c (Int.ne_of_gt hm)
  have h1 := Int.emod_lt_of_pos c hm
  rw [residue_eq]
  omega

theorem residue_natCast (v : Variable) {n : Nat} (h : n < v.modulus) : v.residue n = n := by
  have : ((n : Int) % (v.modulus : Int)) = (n : Int) :=
    Int.emod_eq_of_lt (by omega) (by exact_mod_cast h)
  simp [residue_eq, this]

end Variable

inductive Formula where
  | const (value : Bool)
  /-- The field lies between the two constants, as unsigned numbers. -/
  | inRange (field : Variable) (low high : Int)
  | equals (field : Variable) (value : Int)
  | all (parts : List Formula)
  | any (parts : List Formula)
  | not (operand : Formula)
  | hole

namespace Formula

def conjunction : List Formula → Formula
  | [] => const true
  | parts => all parts

def disjunction : List Formula → Formula
  | [] => const false
  | parts => any parts

def iff (left right : Formula) : Formula :=
  any [all [left, right], all [not left, not right]]

mutual

def hasHole : Formula → Bool
  | const _ => false
  | inRange _ _ _ => false
  | equals _ _ => false
  | all parts => anyHole parts
  | any parts => anyHole parts
  | not operand => hasHole operand
  | hole => true

def anyHole : List Formula → Bool
  | [] => false
  | part :: rest => hasHole part || anyHole rest

end

mutual

/-- The variables of the formula, in order of occurrence. -/
def fields : Formula → List Variable
  | const _ => []
  | inRange v _ _ => [v]
  | equals v _ => [v]
  | all parts => fieldsOfAll parts
  | any parts => fieldsOfAll parts
  | not operand => fields operand
  | hole => []

def fieldsOfAll : List Formula → List Variable
  | [] => []
  | part :: rest => fields part ++ fieldsOfAll rest

end

/-- The variables of the formula, each once, in order of first occurrence. -/
def vars (f : Formula) : List Variable := f.fields.eraseDups

mutual

def same : Formula → Formula → Bool
  | const a, const b => a == b
  | inRange v l h, inRange v' l' h' => v == v' && l == l' && h == h'
  | equals v c, equals v' c' => v == v' && c == c'
  | all ps, all qs => sameList ps qs
  | any ps, any qs => sameList ps qs
  | not f, not g => same f g
  | hole, hole => true
  | _, _ => false

def sameList : List Formula → List Formula → Bool
  | [], [] => true
  | p :: ps, q :: qs => same p q && sameList ps qs
  | _, _ => false

end

mutual

theorem same_iff : ∀ f g : Formula, same f g = true ↔ f = g
  | const a, g => by cases g <;> simp [same]
  | inRange v l h, g => by cases g <;> simp [same, and_assoc]
  | equals v c, g => by cases g <;> simp [same]
  | all ps, g => by cases g <;> simp [same, sameList_iff ps]
  | any ps, g => by cases g <;> simp [same, sameList_iff ps]
  | not f, g => by cases g <;> simp [same, same_iff f]
  | hole, g => by cases g <;> simp [same]

theorem sameList_iff : ∀ ps qs : List Formula, sameList ps qs = true ↔ ps = qs
  | [], qs => by cases qs <;> simp [sameList]
  | p :: ps, qs => by cases qs <;> simp [sameList, same_iff p, sameList_iff ps]

end

instance : DecidableEq Formula := fun f g => decidable_of_iff _ (same_iff f g)

end Formula

end FirewallPolicy
