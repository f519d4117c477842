import FirewallPolicy.Proofs.Query.Decision

/-!
A query decides every packet, or is refused for a field that does not fit.

The fields of a packet are looked at in a fixed order: source port, destination port, protocol. The
first whose value does not fit (`Packet.FirstMisfit`) is what the pattern is refused for
(`FirstMisfit.pattern_eq`), and there is one unless all fields fit (`exists_firstMisfit_iff`). The
refusal names the field, unless its value has more digits than are written: then it says only that
(`misfit`).

The two parts of an answer are read off the model one after the other, but they say the same: the
decision follows from the rules that match (`Firewall.admits_iff_matching`).

Proved: `Query.run_decides`, a query fails exactly if a field does not fit, and then for the first such
field; any other query is answered by the rules that match, in their order, and by the decision that
follows from them. `Query.a_port_with_too_many_digits_is_not_named` is a query that fails without the
name of the field.
-/

namespace FirewallPolicy

/-! ## Values that fit -/

namespace Variable

def Fits (v : Variable) (n : Int) : Prop := 0 ≤ n ∧ n < v.modulus

instance (v : Variable) (n : Int) : Decidable (v.Fits n) := inferInstanceAs (Decidable (_ ∧ _))

theorem checkValue_eq {v : Variable} (hwidth : 0 ≤ v.width) (n : Int) :
    v.checkValue n = if v.Fits n then .ok () else .error (.worded (.valueTooWide v n)) := by
  have hpos := v.modulus_pos
  have hmax : v.maxValue = .ok (v.modulus - 1) := if_neg (by omega)
  unfold checkValue
  by_cases hneg : n < 0
  · rw [if_pos hneg, if_neg fun hfits => by have := hfits.1; omega]
  · rw [if_neg hneg, hmax, ok_bind]
    have hiff : n ≤ ((v.modulus - 1 : Nat) : Int) ↔ v.Fits n := by
      unfold Fits
      omega
    simp only [hiff]

end Variable

namespace Field

theorem width_nonneg : ∀ v ∈ all, 0 ≤ v.width := by decide

theorem width_writable : ∀ v ∈ all, Text.Numeral.Writable v.width := by decide +kernel

end Field

namespace Packet

/-- Why a value that does not fit a field is refused. -/
def misfit (v : Variable) (n : Int) : Invalid :=
  if Text.Numeral.Writable n then .valueTooWide v n else .unwritable

theorem worded_valueTooWide {v : Variable} (hv : v ∈ Field.all) (n : Int) :
    Invalid.worded (.valueTooWide v n) = misfit v n := by
  have hwidth := Field.width_writable v hv
  simp [Invalid.worded, Invalid.numbers, misfit, hwidth]

theorem pinned_eq {v : Variable} (hv : v ∈ Field.all) (n : Int) :
    pinned v n = if v.Fits n then .ok (.equals v n) else .error (misfit v n) := by
  rw [pinned, Variable.checkValue_eq (Field.width_nonneg v hv), worded_valueTooWide hv]
  split <;> rfl

/-! ## The first field that does not fit -/

/-- Fields are pinned in their order, so the first that does not fit is the one that is refused. -/
theorem mapM_pinned_of_find? {xs : List (Variable × Int)} (hxs : ∀ x ∈ xs, x.1 ∈ Field.all)
    {x : Variable × Int} (h : xs.find? (fun x => !decide (x.1.Fits x.2)) = some x) :
    xs.mapM (fun x => pinned x.1 x.2) = .error (misfit x.1 x.2) := by
  induction xs with
  | nil => cases h
  | cons y ys ih =>
    rw [List.mapM_cons, pinned_eq (hxs y (by simp))]
    by_cases hfits : y.1.Fits y.2
    · rw [List.find?_cons_of_neg (by simp [hfits])] at h
      rw [if_pos hfits, ih (fun z hz => hxs z (by simp [hz])) h]
      rfl
    · rw [List.find?_cons_of_pos (by simp [hfits])] at h
      cases h
      rw [if_neg hfits]
      rfl

/-- The first field of the packet whose value does not fit, in the order in which they are looked at. -/
inductive FirstMisfit (p : Packet) : Variable → Int → Prop
  | sourcePort {n : Int} : p.sourcePort = some n → ¬Field.sourcePort.Fits n →
      FirstMisfit p Field.sourcePort n
  | destinationPort {n : Int} : (∀ m, p.sourcePort = some m → Field.sourcePort.Fits m) →
      p.destinationPort = some n → ¬Field.destinationPort.Fits n →
      FirstMisfit p Field.destinationPort n
  | protocol {n : Int} : (∀ m, p.sourcePort = some m → Field.sourcePort.Fits m) →
      (∀ m, p.destinationPort = some m → Field.destinationPort.Fits m) →
      p.protocol = some n → ¬Field.protocol.Fits n → FirstMisfit p Field.protocol n

/-- An address always fits. -/
theorem fits_address (a : Address) : Field.sourceAddress.Fits a.value :=
  ⟨Int.natCast_nonneg _, Int.ofNat_lt.mpr a.value_lt⟩

theorem FirstMisfit.pattern_eq {p : Packet} {v : Variable} {n : Int} (h : p.FirstMisfit v n) :
    p.pattern = .error (misfit v n) := by
  have hfind : p.present.find? (fun x => !decide (x.1.Fits x.2)) = some (v, n) := by
    unfold present
    cases h with
    | sourcePort hn hmisfit =>
      cases ha : p.sourceAddress <;> simp [hn, hmisfit, fits_address]
    | destinationPort hs hn hmisfit =>
      cases ha : p.sourceAddress <;> cases hsp : p.sourcePort <;>
        simp_all [fits_address]
    | protocol hs hd hn hmisfit =>
      cases ha : p.sourceAddress <;> cases hsp : p.sourcePort <;> cases hdp : p.destinationPort <;>
        simp_all [fits_address]
  rw [pattern, mapM_pinned_of_find? mem_all_of_mem_present hfind]
  rfl

theorem exists_firstMisfit_iff (p : Packet) : (∃ v n, p.FirstMisfit v n) ↔ ¬p.Fits := by
  constructor
  · rintro ⟨v, n, hmisfit⟩ hfits
    cases hmisfit with
    | sourcePort hn hnot => exact hnot (hfits.sourcePort n hn)
    | destinationPort _ hn hnot => exact hnot (hfits.destinationPort n hn)
    | protocol _ _ hn hnot => exact hnot (hfits.protocol n hn)
  · intro hnot
    by_cases hs : ∀ n, p.sourcePort = some n → Field.sourcePort.Fits n
    · by_cases hd : ∀ n, p.destinationPort = some n → Field.destinationPort.Fits n
      · by_cases hp : ∀ n, p.protocol = some n → Field.protocol.Fits n
        · exact absurd ⟨hs, hd, hp⟩ hnot
        · push Not at hp
          obtain ⟨n, hn, hmisfit⟩ := hp
          exact ⟨_, n, .protocol hs hd hn hmisfit⟩
      · push Not at hd
        obtain ⟨n, hn, hmisfit⟩ := hd
        exact ⟨_, n, .destinationPort hs hn hmisfit⟩
    · push Not at hs
      obtain ⟨n, hn, hmisfit⟩ := hs
      exact ⟨_, n, .sourcePort hn hmisfit⟩

end Packet

/-! ## Decisions and matching rules -/

namespace Firewall

theorem mem_matching {fw : Firewall} {d : Datagram} {r : Rule} :
    r ∈ fw.matching d ↔ r ∈ fw.rules ∧ r.enabled = true ∧ r.Matches d := by
  simp [matching]

/-- No rule that matches blocks. -/
theorem forall_matching_iff (fw : Firewall) (d : Datagram) :
    (∀ r ∈ fw.matching d, r.action ≠ .block) ↔
      ∀ r ∈ fw.rules, r.enabled = true → r.action = .block → ¬r.Matches d := by
  simp only [mem_matching]
  constructor
  · intro h r hr he hblock hm
    exact h r ⟨hr, he, hm⟩ hblock
  · rintro h r ⟨hr, he, hm⟩ hblock
    exact h r hr he hblock hm

/-- The decision follows from the rules that match. -/
theorem admits_iff_matching (fw : Firewall) (d : Datagram) :
    fw.Admits d ↔ (∀ r ∈ fw.matching d, r.action ≠ .block) ∧
      (fw.blockByDefault = false ∨ ∃ r ∈ fw.matching d, r.action = .allow) := by
  have hallows : (∃ r ∈ fw.matching d, r.action = .allow) ↔
      ∃ r ∈ fw.rules, r.enabled = true ∧ r.action = .allow ∧ r.Matches d := by
    simp only [mem_matching]
    constructor
    · rintro ⟨r, ⟨hr, he, hm⟩, hallow⟩
      exact ⟨r, hr, he, hallow, hm⟩
    · rintro ⟨r, hr, he, hallow, hm⟩
      exact ⟨r, ⟨hr, he, hm⟩, hallow⟩
  rw [Admits, forall_matching_iff, hallows]

end Firewall

/-! ## Queries -/

namespace Query

theorem run_of_firstMisfit (solver : Solver) (fw : Firewall) {p : Packet} {v : Variable} {n : Int}
    (h : p.FirstMisfit v n) : run solver fw p = .error (.invalid (Packet.misfit v n)) := by
  rw [run, h.pattern_eq]
  rfl

/-- A query fails exactly if a field of the packet does not fit, and it fails for the first such field
and for no other reason: that its value does not fit the field, or only that it has too many digits to
be written. If the fields fit, the query answers with the enabled rules that match the packet, zero for
its open fields, in their order; the packet is let through exactly if none of them blocks, and one of
them allows or the firewall does not block by default. -/
theorem run_decides {solver : Solver} (hsolver : solver.Correct) (hdecisive : solver.Decisive)
    (fw : Firewall) (p : Packet) :
    ((∃ failure, run solver fw p = .error failure) ↔ ¬p.Fits) ∧
    (∀ failure, run solver fw p = .error failure ↔
      ∃ v n, p.FirstMisfit v n ∧ failure = .invalid
        (if Text.Numeral.Writable n then .valueTooWide v n else .unwritable)) ∧
    (p.Fits → ∃ result, run solver fw p = .ok result ∧
      result.rules = fw.rules.filter (fun r => r.enabled && decide (r.Matches p.datagram)) ∧
      (result.allowed = true ↔ (∀ r ∈ result.rules, r.action ≠ .block) ∧
        (fw.blockByDefault = false ∨ ∃ r ∈ result.rules, r.action = .allow))) := by
  by_cases hfits : p.Fits
  · have hrun := run_eq hsolver hdecisive fw (p.covers_datagram_iff.mpr hfits)
    have hnone : ¬∃ v n, p.FirstMisfit v n := fun h => (p.exists_firstMisfit_iff.mp h) hfits
    rw [hrun]
    refine ⟨by simp [hfits], fun failure => ?_, fun _ => ⟨_, rfl, rfl, ?_⟩⟩
    · exact iff_of_false (by simp) fun ⟨v, n, hmisfit, _⟩ => hnone ⟨v, n, hmisfit⟩
    · rw [decide_eq_true_iff]
      exact fw.admits_iff_matching p.datagram
  · obtain ⟨v, n, hmisfit⟩ := p.exists_firstMisfit_iff.mpr hfits
    have hrun := run_of_firstMisfit solver fw hmisfit
    refine ⟨iff_of_true ⟨_, hrun⟩ hfits, fun failure => ⟨fun h => ?_, ?_⟩, fun h => absurd h hfits⟩
    · rw [hrun] at h
      exact ⟨v, n, hmisfit, (Except.error.inj h).symm⟩
    · rintro ⟨v', n', hmisfit', rfl⟩
      exact run_of_firstMisfit solver fw hmisfit'

/-- A firewall that lets web requests through unless they come from one network. -/
def gate : Firewall where
  rules := [
    { name := "web", localPorts := .ofRanges [⟨443, 443, by decide, by decide⟩] },
    { name := "off", enabled := false },
    { name := "network", action := .block,
      remoteAddresses := .ofRanges [⟨167772160, 184549375, by decide, by decide⟩] }]

/-- A web request that leaves its source address open is taken to come from the address zero, and is let
through. If neither port fits, the source port is named. -/
theorem gate_decides_web_requests :
    Solver.exact.Correct ∧ Solver.exact.Decisive ∧
      (∃ result, run .exact gate { destinationPort := some 443 } = .ok result ∧
        result.rules.map (·.name) = ["web"] ∧ result.allowed = true) ∧
      ∃ failure, run .exact gate { sourcePort := some 65536, destinationPort := some (-1) } =
          .error failure ∧
        failure.message = "Value 65536 does not fit in 16-bit variable sourcePort" := by
  obtain ⟨-, -, hanswer⟩ := run_decides exact_correct exact_decisive gate { destinationPort := some 443 }
  obtain ⟨-, hfailure, -⟩ := run_decides exact_correct exact_decisive gate
    { sourcePort := some 65536, destinationPort := some (-1) }
  have hfits : Packet.Fits { destinationPort := some 443 } := by
    constructor <;> simp [UInt16.size]
  have hmisfit : Packet.FirstMisfit { sourcePort := some 65536, destinationPort := some (-1) }
      Field.sourcePort 65536 := .sourcePort rfl (by decide)
  obtain ⟨result, hrun, hrules, hallowed⟩ := hanswer hfits
  refine ⟨exact_correct, exact_decisive, ⟨result, hrun, ?_, ?_⟩,
    _, (hfailure _).mpr ⟨_, _, hmisfit, rfl⟩, ?_⟩
  · rw [hrules]
    decide +kernel
  · rw [hallowed, hrules]
    decide +kernel
  · decide +kernel

/-- The smallest number with more digits than are written. -/
def longPort : Int := (Nat.pow 10 Text.Numeral.maxDigits : Nat)

/-- As a source port that number is refused because it does not fit, but the failure does not name the
field. -/
theorem a_port_with_too_many_digits_is_not_named :
    Packet.FirstMisfit { sourcePort := some longPort } Field.sourcePort longPort ∧
      ∃ failure, run .exact gate { sourcePort := some longPort } = .error failure ∧
        failure.message = "Exceeds the limit (4300 digits) for integer string conversion; " ++
          "use sys.set_int_max_str_digits() to increase the limit" ∧
        ¬∃ v n, failure = .invalid (.valueTooWide v n) := by
  have hlong : ¬Text.Numeral.Writable longPort := by decide +kernel
  have hmisfit : Packet.FirstMisfit { sourcePort := some longPort } Field.sourcePort longPort :=
    .sourcePort rfl (by decide +kernel)
  have hrun := run_of_firstMisfit .exact gate hmisfit
  rw [Packet.misfit, if_neg hlong] at hrun
  exact ⟨hmisfit, _, hrun, by decide +kernel, by simp⟩

end Query

end FirewallPolicy
