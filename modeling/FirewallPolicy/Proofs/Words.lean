import FirewallPolicy.Proofs.Meaning

/-!
Formulas over machine words.

A solver of bit vectors gives every variable a word of the variable's width, turns the constants of a
formula into words of that width, and compares words as unsigned numbers (`Formula.evalWords`). This
is the value of the formula under the numbers that the words stand for (`evalWords_eq`), so what a
formula means can be said of words as well.

Proved: `admits_over_words`, the formula of a firewall can always be built, and over words it is true
exactly of the packets that the firewall lets through.
-/

namespace FirewallPolicy

abbrev WordAssignment := (v : Variable) → BitVec v.width.toNat

namespace WordAssignment

def numbers (β : WordAssignment) : Assignment := fun v => (β v).toNat

def datagram (β : WordAssignment) : Datagram :=
  ⟨(β Field.sourceAddress).toFin, (β Field.sourcePort).toFin, (β Field.destinationPort).toFin,
    (β Field.protocol).toFin⟩

theorem numbers_eq (β : WordAssignment) : ∀ u ∈ Field.all, β.numbers u = β.datagram.assignment u := by
  simp only [Field.all, List.forall_mem_cons]
  refine ⟨?_, ?_, ?_, ?_, by simp⟩
  · rw [Datagram.assignment_sourceAddress]; rfl
  · rw [Datagram.assignment_sourcePort]; rfl
  · rw [Datagram.assignment_destinationPort]; rfl
  · rw [Datagram.assignment_protocol]; rfl

end WordAssignment

/-- A constant stands for the number of its word, however large it is. -/
theorem Variable.residue_eq_toNat (v : Variable) (c : Int) :
    v.residue c = (BitVec.ofInt v.width.toNat c).toNat := by
  rw [residue_eq, BitVec.toNat_ofInt]
  rfl

namespace Formula

mutual

def evalWords (β : WordAssignment) : Formula → Bool
  | const b => b
  | inRange v low high => (BitVec.ofInt _ low).ule (β v) && (β v).ule (BitVec.ofInt _ high)
  | equals v c => β v == BitVec.ofInt _ c
  | all parts => allWords β parts
  | any parts => anyWords β parts
  | not operand => !evalWords β operand
  | hole => false

def allWords (β : WordAssignment) : List Formula → Bool
  | [] => true
  | part :: rest => evalWords β part && allWords β rest

def anyWords (β : WordAssignment) : List Formula → Bool
  | [] => false
  | part :: rest => evalWords β part || anyWords β rest

end

mutual

theorem evalWords_eq (β : WordAssignment) : ∀ f : Formula, f.evalWords β = f.eval β.numbers
  | const _ => rfl
  | inRange v low high => by
    simp [evalWords, eval, Variable.residue_eq_toNat, WordAssignment.numbers,
      BitVec.ule_eq_decide_le, BitVec.le_def]
  | equals v c => by
    simp [evalWords, eval, Variable.residue_eq_toNat, WordAssignment.numbers, ← BitVec.toNat_inj,
      Bool.beq_eq_decide_eq]
  | all parts => by simp only [evalWords, eval, allWords_eq β parts]
  | any parts => by simp only [evalWords, eval, anyWords_eq β parts]
  | not operand => by simp only [evalWords, eval, evalWords_eq β operand]
  | hole => rfl

theorem allWords_eq (β : WordAssignment) : ∀ parts, allWords β parts = evalAll β.numbers parts
  | [] => rfl
  | p :: ps => by simp only [allWords, evalAll, evalWords_eq β p, allWords_eq β ps]

theorem anyWords_eq (β : WordAssignment) : ∀ parts, anyWords β parts = evalAny β.numbers parts
  | [] => rfl
  | p :: ps => by simp only [anyWords, evalAny, evalWords_eq β p, anyWords_eq β ps]

end

end Formula

theorem Formula.Means.evalWords_iff {f : Formula} {P : Datagram → Prop} (h : f.Means P)
    (β : WordAssignment) : f.evalWords β = true ↔ P β.datagram := by
  have hcongr : f.eval β.numbers = f.eval β.datagram.assignment :=
    Formula.eval_congr f fun v hv => β.numbers_eq v (h.mem_all v hv)
  rw [Formula.evalWords_eq, hcongr]
  exact h.holds_iff β.datagram

/-- The formula of a firewall can always be built and put to a solver, and over words it is true
exactly of the packets that the firewall lets through: no enabled block rule matches, and the
firewall allows by default or an enabled allow rule matches. -/
theorem Firewall.admits_over_words (fw : Firewall) :
    ∃ f, fw.admits = .ok f ∧ f.hasHole = false ∧
      ∀ β : WordAssignment, f.evalWords β = true ↔
        (∀ r ∈ fw.rules, r.enabled = true → r.action = .block → ¬r.Matches β.datagram) ∧
          (fw.blockByDefault = false ∨
            ∃ r ∈ fw.rules, r.enabled = true ∧ r.action = .allow ∧ r.Matches β.datagram) := by
  obtain ⟨f, hf, hmeans⟩ := fw.admits_means
  exact ⟨f, hf, hmeans.hasHole_eq, hmeans.evalWords_iff⟩

end FirewallPolicy
