import FirewallPolicy.Proofs.Reading

/-!
Calls on one model, made one after the other.

A model is asked for the value bound under a name, for its packet, or whether a formula holds
(`Model.Call`). Only the last kind changes the model: it binds to zero the variables of the formula that
are still free (`Call.variables`), unless a hole occurs in the formula, which is refused. So a call adds
bindings behind those that are there (`bindings_call`), and what is bound after it is known variable by
variable (`get?_call`).

Names tell variables apart if each name has one width (`Model.Typed`). Then a value is found by its name,
and the packet has the bound fields, and no others (`packet_field?`).

Proved: `evaluations_agree`, each evaluation in a run of calls gives the value that the formula has with zero for
every variable free at the start, whatever was called before it; nothing bound is changed or taken away; and
what values and packets show changes only where a free variable has become zero.
-/

namespace FirewallPolicy

/-! ## Fields of packets -/

namespace Packet

def field? (p : Packet) (u : Variable) : Option Int :=
  if u = Field.sourceAddress then p.sourceAddress.map fun a => (a.value : Int)
  else if u = Field.sourcePort then p.sourcePort
  else if u = Field.destinationPort then p.destinationPort
  else if u = Field.protocol then p.protocol
  else none

variable (p : Packet)

theorem field?_sourceAddress :
    p.field? Field.sourceAddress = p.sourceAddress.map fun a => (a.value : Int) := by
  simp [field?]

theorem field?_sourcePort : p.field? Field.sourcePort = p.sourcePort := by
  simp [field?, Field.sourcePort_ne_sourceAddress]

theorem field?_destinationPort : p.field? Field.destinationPort = p.destinationPort := by
  simp [field?, Field.destinationPort_ne_sourceAddress, Field.destinationPort_ne_sourcePort]

theorem field?_protocol : p.field? Field.protocol = p.protocol := by
  simp [field?, Field.protocol_ne_sourceAddress, Field.protocol_ne_sourcePort,
    Field.protocol_ne_destinationPort]

end Packet

namespace Model

/-- The packet of a model has the fields that are bound, and every other field is open. -/
theorem packet_field? {m : Model} (h : m.OfPackets) :
    ∃ p : Packet, m.packet = .ok p ∧ ∀ u ∈ Field.all, p.field? u = (m.get? u).map Int.ofNat := by
  obtain ⟨address, haddress, hpacket⟩ := packet_eq_ok h
  refine ⟨_, hpacket, ?_⟩
  simp only [Field.all, List.forall_mem_cons, Packet.field?_sourcePort, Packet.field?_destinationPort,
    Packet.field?_protocol, true_and]
  refine ⟨?_, by simp⟩
  rw [Packet.field?_sourceAddress, ← haddress, Option.map_map]
  rfl

/-! ## Calls -/

inductive Call where
  | value (name : String)
  | packet
  | holds (f : Formula)
  deriving DecidableEq

inductive Reply where
  | value (bound : Option Nat)
  | packet (read : Except Invalid Packet)
  | holds (verdict : Except Failure Bool)
  deriving DecidableEq

def Call.variables : Call → List Variable
  | .value _ => []
  | .packet => []
  | .holds f => if f.hasHole then [] else f.fields

/-- The answer to a call, and the model after it. A refused call leaves the model as it is. -/
def call (m : Model) : Call → Reply × Model
  | .value name => (.value (m.value? name), m)
  | .packet => (.packet m.packet, m)
  | .holds f =>
    match m.holds f with
    | .ok (verdict, completed) => (.holds (.ok verdict), completed)
    | .error failure => (.holds (.error failure), m)

def replies (m : Model) : List Call → List Reply
  | [] => []
  | c :: calls => (m.call c).1 :: (m.call c).2.replies calls

def after (m : Model) : List Call → Model
  | [] => m
  | c :: calls => (m.call c).2.after calls

def evaluated (calls : List Call) : List Variable := calls.flatMap Call.variables

/-! ## One call -/

variable {m : Model}

theorem call_holds_of_hole {f : Formula} (h : f.hasHole = true) :
    m.call (.holds f) = (.holds (.error .hole), m) := by
  simp [call, holds, h]

theorem call_holds {f : Formula} (h : f.hasHole = false) :
    m.call (.holds f) = (.holds (.ok (f.eval m.assignment)), m.complete f) := by
  simp [call, holds, h]

/-- A call completes the model by some formula, or leaves it as it is. -/
theorem call_cases (m : Model) (c : Call) :
    ((m.call c).2 = m ∧ c.variables = []) ∨
      ∃ f : Formula, (m.call c).2 = m.complete f ∧ c.variables = f.fields := by
  cases c with
  | value name => exact Or.inl ⟨rfl, rfl⟩
  | packet => exact Or.inl ⟨rfl, rfl⟩
  | holds f =>
    cases hf : f.hasHole with
    | true => exact Or.inl ⟨by rw [call_holds_of_hole hf], by simp [Call.variables, hf]⟩
    | false => exact Or.inr ⟨f, by rw [call_holds hf], by simp [Call.variables, hf]⟩

/-- What is bound stays as it is, and what is added is evaluated, and zero. -/
theorem bindings_call (m : Model) (c : Call) :
    ∃ added, (m.call c).2.bindings = m.bindings ++ added ∧ ∀ b ∈ added, b.1 ∈ c.variables ∧ b.2 = 0 := by
  rcases m.call_cases c with ⟨hsame, -⟩ | ⟨f, hcomplete, hfields⟩
  · exact ⟨[], by rw [hsame, List.append_nil], by simp⟩
  · refine ⟨_, by rw [hcomplete]; rfl, ?_⟩
    intro b hb
    obtain ⟨v, hv, rfl⟩ := List.mem_map.mp hb
    rw [hfields]
    exact ⟨Formula.mem_vars.mp (List.mem_filter.mp hv).1, rfl⟩

theorem get?_call (m : Model) (c : Call) (v : Variable) :
    (m.call c).2.get? v = (m.get? v).or (if v ∈ c.variables then some 0 else none) := by
  rcases m.call_cases c with ⟨hsame, hnone⟩ | ⟨f, hcomplete, hfields⟩
  · rw [hsame, hnone]
    simp
  · rw [hcomplete, hfields, get?_complete]
    simp only [Formula.mem_vars]

theorem assignment_call (m : Model) (c : Call) : (m.call c).2.assignment = m.assignment := by
  rcases m.call_cases c with ⟨hsame, -⟩ | ⟨f, hcomplete, -⟩
  · rw [hsame]
  · rw [hcomplete, assignment_complete]

/-! ## Calls one after the other -/

theorem after_append (m : Model) (before rest : List Call) :
    m.after (before ++ rest) = (m.after before).after rest := by
  induction before generalizing m with
  | nil => rfl
  | cons c calls ih => exact ih _

theorem evaluated_cons (c : Call) (calls : List Call) :
    evaluated (c :: calls) = c.variables ++ evaluated calls := List.flatMap_cons

theorem getElem?_replies (m : Model) (calls : List Call) (i : Nat) :
    (m.replies calls)[i]? = calls[i]?.map fun c => ((m.after (calls.take i)).call c).1 := by
  induction calls generalizing m i with
  | nil => rfl
  | cons c calls ih =>
    cases i with
    | zero => rfl
    | succ i => exact ih (m.call c).2 i

theorem bindings_after (m : Model) (calls : List Call) :
    ∃ added, (m.after calls).bindings = m.bindings ++ added ∧
      ∀ b ∈ added, b.1 ∈ evaluated calls ∧ b.2 = 0 := by
  induction calls generalizing m with
  | nil => exact ⟨[], by simp [after], by simp⟩
  | cons c calls ih =>
    obtain ⟨first, hfirst, hzero⟩ := m.bindings_call c
    obtain ⟨more, hmore, hzeros⟩ := ih (m.call c).2
    refine ⟨first ++ more, by rw [after, hmore, hfirst, List.append_assoc], ?_⟩
    intro b hb
    rw [evaluated_cons, List.mem_append]
    rcases List.mem_append.mp hb with hb | hb
    · exact ⟨Or.inl (hzero b hb).1, (hzero b hb).2⟩
    · exact ⟨Or.inr (hzeros b hb).1, (hzeros b hb).2⟩

theorem get?_after (m : Model) (calls : List Call) (v : Variable) :
    (m.after calls).get? v = (m.get? v).or (if v ∈ evaluated calls then some 0 else none) := by
  induction calls generalizing m with
  | nil => simp [after, evaluated]
  | cons c calls ih =>
    rw [after, ih, get?_call, evaluated_cons]
    by_cases hc : v ∈ c.variables
    · cases m.get? v <;> simp [hc]
    · cases m.get? v <;> simp [hc]

theorem assignment_after (m : Model) (calls : List Call) : (m.after calls).assignment = m.assignment := by
  induction calls generalizing m with
  | nil => rfl
  | cons c calls ih => rw [after, ih, assignment_call]

/-! ## Names -/

/-- Every variable that is bound or evaluated has the width of its name, which for the name of a field is
that of the field. The values that are bound fit. -/
structure Typed (width : String → Int) (m : Model) (calls : List Call) : Prop where
  bound : ∀ b ∈ m.bindings, b.1.width = width b.1.name ∧ b.2 < b.1.modulus
  evaluated : ∀ v ∈ evaluated calls, v.width = width v.name
  fields : ∀ u ∈ Field.all, u.width = width u.name

namespace Typed

variable {width : String → Int} {calls : List Call}

theorem take (h : Typed width m calls) (i : Nat) : Typed width m (calls.take i) where
  bound := h.bound
  evaluated v hv := by
    obtain ⟨c, hc, hmem⟩ := List.mem_flatMap.mp hv
    exact h.evaluated v (List.mem_flatMap.mpr ⟨c, List.mem_of_mem_take hc, hmem⟩)
  fields := h.fields

/-- What is bound after the calls has the width of its name, too, and a value that fits. -/
theorem bound_after (h : Typed width m calls) :
    ∀ b ∈ (m.after calls).bindings, b.1.width = width b.1.name ∧ b.2 < b.1.modulus := by
  obtain ⟨added, hbindings, hzero⟩ := m.bindings_after calls
  intro b hb
  rw [hbindings, List.mem_append] at hb
  rcases hb with hb | hb
  · exact h.bound b hb
  · refine ⟨h.evaluated b.1 (hzero b hb).1, ?_⟩
    rw [(hzero b hb).2]
    exact b.1.modulus_pos

/-- So the name of what is bound says which variable it is. -/
theorem eq_of_name (h : Typed width m calls) {b : Variable × Nat} (hb : b ∈ (m.after calls).bindings)
    {u : Variable} (hu : u.width = width u.name) (hname : b.1.name = u.name) : b.1 = u := by
  have hwidth := (h.bound_after b hb).1
  rw [hname, ← hu] at hwidth
  exact congrArg₂ Variable.mk hname hwidth

/-- A value is found by its name, unless that is empty. -/
theorem value?_after (h : Typed width m calls) (name : String) :
    (m.after calls).value? name =
      if name = "" then none else (m.after calls).get? ⟨name, width name⟩ := by
  by_cases hname : name = ""
  · rw [hname]
    rfl
  · rw [if_neg hname]
    refine value?_of_unique (u := ⟨name, width name⟩) (by simpa using hname) ?_
    intro b hb
    exact h.eq_of_name hb rfl

theorem ofPackets_after (h : Typed width m calls) : (m.after calls).OfPackets := by
  intro b hb u hu hname
  have heq := h.eq_of_name hb (h.fields u hu) hname
  have hfits := (h.bound_after b hb).2
  exact ⟨heq, heq ▸ hfits⟩

end Typed

/-! ## Agreement -/

/-- However many calls are made on a model, in whatever order: a formula is evaluated with zero for every
variable that is free at the start, or refused because of a hole; nothing bound is changed or taken away;
bound in the end are the variables bound at the start, and with zero all others that were evaluated; a value
shows what is bound under its name by then; and a packet has the fields bound at the start, and zero for each
other field that was evaluated by then. -/
theorem evaluations_agree {width : String → Int} {m : Model} {calls : List Call} (h : Typed width m calls) :
    (∀ (i : Nat) (f : Formula), calls[i]? = some (Call.holds f) → (m.replies calls)[i]? =
      some (Reply.holds (if f.hasHole then .error .hole else .ok (f.eval m.assignment)))) ∧
    (∀ i, ∃ added, (m.after calls).bindings = (m.after (calls.take i)).bindings ++ added ∧
      ∀ b ∈ added, b.2 = 0) ∧
    (∀ v, (m.after calls).get? v = (m.get? v).or (if v ∈ evaluated calls then some 0 else none)) ∧
    (∀ (i : Nat) (name : String), calls[i]? = some (Call.value name) →
      let v : Variable := ⟨name, width name⟩
      (m.replies calls)[i]? = some (Reply.value (if name = "" then none
        else (m.get? v).or (if v ∈ evaluated (calls.take i) then some 0 else none)))) ∧
    ∃ p : Packet, m.packet = .ok p ∧ (∀ u ∈ Field.all, p.field? u = (m.get? u).map Int.ofNat) ∧
      ∀ i : Nat, calls[i]? = some Call.packet →
        ∃ q : Packet, (m.replies calls)[i]? = some (Reply.packet (.ok q)) ∧ ∀ u ∈ Field.all,
          q.field? u = (p.field? u).or (if u ∈ evaluated (calls.take i) then some 0 else none) := by
  -- Before the first call the model is still the one of the start.
  obtain ⟨p, hp, hfields⟩ := packet_field? (h.take 0).ofPackets_after
  refine ⟨?_, ?_, m.get?_after calls, ?_, p, hp, hfields, ?_⟩
  · intro i f hi
    rw [getElem?_replies, hi, Option.map_some]
    cases hf : f.hasHole with
    | true => simp [call_holds_of_hole hf]
    | false => simp [call_holds hf, assignment_after]
  · intro i
    obtain ⟨added, hbindings, hzero⟩ := (m.after (calls.take i)).bindings_after (calls.drop i)
    rw [← after_append, List.take_append_drop] at hbindings
    exact ⟨added, hbindings, fun b hb => (hzero b hb).2⟩
  · intro i name hi
    rw [getElem?_replies, hi, Option.map_some]
    simp only [call, (h.take i).value?_after, get?_after]
  · intro i hi
    obtain ⟨q, hq, hlater⟩ := packet_field? (h.take i).ofPackets_after
    refine ⟨q, by rw [getElem?_replies, hi, Option.map_some, call, hq], ?_⟩
    intro u hu
    have hnow : (m.get? u).map Int.ofNat = p.field? u := (hfields u hu).symm
    rw [hlater u hu, get?_after, Option.map_or, hnow]
    by_cases hev : u ∈ evaluated (calls.take i)
    · simp [hev]
    · simp [hev]

def fieldWidth (name : String) : Int := ((Field.all.find? (·.name == name)).map (·.width)).getD 1

def fromPort53 : Model := ⟨[(Field.sourcePort, 53)]⟩

/-- Between two packets a formula about two other fields is evaluated, which is true whatever the second is. -/
def interleaved : List Call :=
  [.packet, .holds (.any [.inRange Field.destinationPort 0 1023, .equals Field.protocol 6]), .value "protocol",
    .packet, .holds (.not .hole), .holds (.all [.equals Field.sourcePort 53, .equals Field.sourceAddress 1])]

/-- Both fields are zero in the second packet. The address, which is evaluated behind it, is still open there. -/
theorem evaluated_fields_become_zero :
    Typed fieldWidth fromPort53 interleaved ∧
      (fromPort53.replies interleaved)[1]? = some (.holds (.ok true)) ∧
      (fromPort53.replies interleaved)[2]? = some (.value (some 0)) ∧
      (fromPort53.replies interleaved)[4]? = some (.holds (.error .hole)) ∧
      (fromPort53.replies interleaved)[5]? = some (.holds (.ok false)) ∧
      ∃ p q : Packet, (fromPort53.replies interleaved)[0]? = some (.packet (.ok p)) ∧
        (fromPort53.replies interleaved)[3]? = some (.packet (.ok q)) ∧
        ∀ u ∈ Field.all, p.field? u = (if u = Field.sourcePort then some 53 else none) ∧
          q.field? u = (if u = Field.sourceAddress then none else if u = Field.sourcePort then some 53
            else some 0) := by
  have htyped : Typed fieldWidth fromPort53 interleaved :=
    ⟨by decide +kernel, by decide +kernel, by decide +kernel⟩
  obtain ⟨hholds, -, -, hvalue, start, -, hstart, hpacket⟩ := evaluations_agree htyped
  obtain ⟨p, hp, hfirst⟩ := hpacket 0 rfl
  obtain ⟨q, hq, hsecond⟩ := hpacket 3 rfl
  refine ⟨htyped, ?_, ?_, hholds 4 _ rfl, ?_, p, q, hp, hq, ?_⟩
  · rw [hholds 1 _ rfl]
    decide +kernel
  · rw [hvalue 2 _ rfl]
    decide +kernel
  · rw [hholds 5 _ rfl]
    decide +kernel
  · intro u hu
    rw [hfirst u hu, hsecond u hu, hstart u hu]
    revert u
    decide +kernel

end Model

end FirewallPolicy
