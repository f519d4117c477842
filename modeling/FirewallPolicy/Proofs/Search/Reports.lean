import FirewallPolicy.Proofs.Search.Coverage

/-!
What a report of the search says.

A report names a packet, the decision of each firewall and the rules that match. The decisions and
the rules are those of one datagram, the one that has zero for the open fields of the packet.

Proved:
- `report_of_mem_inconsistencies`: every report is true of that datagram, whatever the solver answers,
  as long as its values fit their fields; a wrong solver can hide a difference but not invent one;
- `decisions_of_mem_inconsistencies`: with a sound solver the firewalls differ on every datagram of
  the class, so there the decisions are those reported or the reverse of them; they are those
  reported throughout the class exactly if the first firewall decides all of it alike.

The last condition is needed: the question does not ask which firewall lets the packet through, and
where the firewalls are opposites one class has datagrams of both kinds
(`an_open_class_is_decided_both_ways`).
-/

namespace FirewallPolicy.Search

/-! ## Any solver -/

/-- Every report is true of the datagram with zero for the open fields of its packet. -/
theorem report_of_mem_inconsistencies {first second : Firewall} {limit : Option Int} {s : Search}
    (hstart : start first second limit = .ok s) {calls : List Call}
    (hcalls : ∀ c ∈ calls, c.solver.FitsPackets) {i : Inconsistency}
    (hi : i ∈ (s.run calls).inconsistencies) :
    i.firewalls = (first, second) ∧ i.packet.Covers i.packet.datagram ∧
      i.allowed.1 = decide (first.Admits i.packet.datagram) ∧
      i.allowed.2 = decide (second.Admits i.packet.datagram) ∧
      i.rules.1 = first.matching i.packet.datagram ∧
      i.rules.2 = second.matching i.packet.datagram ∧
      i.allowed.1 ≠ i.allowed.2 := by
  obtain ⟨hreport, hne, hself⟩ := eq_report_of_mem (grounded_of_start hstart) hcalls hi
  rw [eq_of_start hstart] at hreport
  refine ⟨?_, hself, ?_, ?_, ?_, ?_, hne⟩ <;> rw [hreport] <;> rfl

/-- A solver that gives every question the blank model claims that the firewalls differ on every
datagram. What the search reports is true all the same of the datagram of zeros. -/
theorem a_wrong_solver_reports_a_true_difference :
    ∃ s i, start web { blockByDefault := false } none = .ok s ∧
      Solver.FitsPackets (fun _ => .sat .empty) ∧
      i ∈ (s.run [⟨fun _ => .sat .empty, false⟩]).inconsistencies ∧ i.packet = {} ∧
      i.allowed.1 = decide (web.Admits i.packet.datagram) ∧
      i.allowed.2 = decide (Firewall.Admits { blockByDefault := false } i.packet.datagram) ∧
      i.rules.1 = web.matching i.packet.datagram ∧ i.allowed.1 ≠ i.allowed.2 := by
  have hstart : start web { blockByDefault := false } none =
    .ok { firewalls := (web, { blockByDefault := false }) } := rfl
  have hblank : Solver.FitsPackets fun _ => .sat .empty := by
    intro q P m _ hsat
    cases hsat
    simp [Model.OfPackets, Model.empty]
  have hi : report { firewalls := (web, { blockByDefault := false }) } {} ∈
      (run { firewalls := (web, { blockByDefault := false }) }
        [⟨fun _ => .sat .empty, false⟩]).inconsistencies := by decide +kernel
  obtain ⟨-, -, hfirst, hsecond, hrules, -, hne⟩ :=
    report_of_mem_inconsistencies hstart (by simpa using hblank) hi
  exact ⟨_, _, hstart, hblank, hi, rfl, hfirst, hsecond, hrules, hne⟩

/-! ## Sound solvers -/

/-- The firewalls differ on the whole class of a report. The decisions reported are those on the
datagram with zero for the open fields; they are those on the whole class exactly if the first
firewall decides all of it alike. -/
theorem decisions_of_mem_inconsistencies {first second : Firewall} {limit : Option Int} {s : Search}
    (hstart : start first second limit = .ok s) {calls : List Call}
    (hcalls : ∀ c ∈ calls, c.solver.SoundOnPackets) {i : Inconsistency}
    (hi : i ∈ (s.run calls).inconsistencies) :
    (∀ d, i.packet.Covers d → (first.Admits d ↔ ¬second.Admits d)) ∧
      i.packet.Covers i.packet.datagram ∧
      i.allowed = (decide (first.Admits i.packet.datagram), decide (second.Admits i.packet.datagram)) ∧
      ((∀ d, i.packet.Covers d → i.allowed = (decide (first.Admits d), decide (second.Admits d))) ↔
        ∀ d d', i.packet.Covers d → i.packet.Covers d' → (first.Admits d ↔ first.Admits d')) := by
  obtain ⟨hreport, -, hself⟩ :=
    eq_report_of_mem (grounded_of_start hstart) (fun c hc => (hcalls c hc).fits) hi
  have hopposite : ∀ d, i.packet.Covers d → (first.Admits d ↔ ¬second.Admits d) := by
    intro d hd
    have hdiffer := differ_of_covers hstart hcalls hi hd
    unfold Firewall.Differ at hdiffer
    tauto
  have hallowed : i.allowed =
      (decide (first.Admits i.packet.datagram), decide (second.Admits i.packet.datagram)) := by
    rw [eq_of_start hstart] at hreport
    rw [hreport]
    rfl
  refine ⟨hopposite, hself, hallowed, ?_⟩
  rw [hallowed]
  simp only [Prod.mk.injEq, decide_eq_decide]
  constructor
  · intro hall d d' hd hd'
    exact (hall d hd).1.symm.trans (hall d' hd').1
  · intro halike d hd
    have hfirst := halike _ d hself hd
    refine ⟨hfirst, ?_⟩
    rw [hopposite _ hself, hopposite d hd] at hfirst
    exact not_iff_not.mp hfirst

/-- A firewall that lets nothing through decides everything alike, so web requests are all decided as
the report of them says. -/
theorem web_requests_are_decided_as_reported :
    ∃ s i, start web {} none = .ok s ∧ Solver.exact.SoundOnPackets ∧
      i ∈ (s.run [⟨.exact, false⟩]).inconsistencies ∧
      i.packet = { destinationPort := some 80, protocol := some 6 } ∧
      ∀ d, i.packet.Covers d → i.allowed = (decide (web.Admits d), decide (Firewall.Admits {} d)) := by
  have hstart : start web {} none = .ok { firewalls := (web, {}) } := rfl
  have hi : report { firewalls := (web, {}) } { destinationPort := some 80, protocol := some 6 } ∈
      (run { firewalls := (web, {}) } [⟨.exact, false⟩]).inconsistencies := by decide +kernel
  have hnone : ∀ d, ¬Firewall.Admits {} d := by simp [Firewall.Admits]
  obtain ⟨hopposite, -, -, halike⟩ :=
    decisions_of_mem_inconsistencies hstart (by simpa using exact_correct.soundOnPackets) hi
  refine ⟨_, _, hstart, exact_correct.soundOnPackets, hi, rfl, halike.mpr fun d d' hd hd' => ?_⟩
  simp [hopposite d hd, hopposite d' hd', hnone]

def onlyTcp : Firewall where
  name := "only tcp"
  rules := [{ name := "tcp", protocol := tcp }]

def allButTcp : Firewall where
  name := "all but tcp"
  blockByDefault := false
  rules := [{ name := "tcp", protocol := tcp, action := .block }]

/-- Firewalls that are opposites differ on every datagram, and the one report of that has all fields
open. It says that the second firewall lets the packet through, but of the datagrams of the class
some are let through by the first and not by the second. -/
theorem an_open_class_is_decided_both_ways :
    ∃ s i, start onlyTcp allButTcp none = .ok s ∧ Solver.exact.Correct ∧
      i ∈ (s.run [⟨.exact, false⟩]).inconsistencies ∧ i.packet = {} ∧ i.allowed = (false, true) ∧
      i.packet.Covers ⟨0, 0, 0, 6⟩ ∧ onlyTcp.Admits ⟨0, 0, 0, 6⟩ ∧ ¬allButTcp.Admits ⟨0, 0, 0, 6⟩ := by
  refine ⟨{ firewalls := (onlyTcp, allButTcp) }, report { firewalls := (onlyTcp, allButTcp) } {},
    rfl, exact_correct, ?_, rfl, ?_, ?_, ?_, ?_⟩
  · decide +kernel
  · decide +kernel
  · simp [Packet.Covers, report]
  · decide +kernel
  · decide +kernel

end FirewallPolicy.Search
