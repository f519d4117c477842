import FirewallPolicy.Proofs.Search.Classes

/-!
The witnesses of a search cover the disagreement of the firewalls.

The classes of the witnesses are parts of the disagreement (`Search.Parted`). When a solver that is
correct on packets denies the question, nothing is open any more, so the classes have all of it. These
are kept along every run as `Search.Covering`.

Proved: `differ_iff_covered_of_exhausted`, an exhausted search has found exactly the disagreement,
whatever the limit, the deadline and the choices of the solver were.
-/

namespace FirewallPolicy.Search

/-- The witnesses stand for datagrams on which the firewalls differ, and for all of them once the
search is exhausted. -/
structure Covering (s : Search) : Prop extends Parted s where
  complete : s.exhausted = true →
    ∀ d, Firewall.Differ s.firewalls.1 s.firewalls.2 d → ∃ w ∈ s.witnesses, w.Covers d

theorem Covering.next {solver : Solver} (hsolver : solver.CorrectOnPackets) {s : Search} (h : Covering s)
    (expired : Bool) : Covering (s.next solver expired).1 := by
  have hparted := h.toParted.next hsolver.toSoundOnPackets expired
  have hmove := next_moves solver expired s
  refine ⟨hparted, ?_⟩
  generalize s.next solver expired = out at hmove
  cases hmove with
  | exhausted hask hunsat =>
    -- What no witness covers would be open, and the question says that nothing is.
    intro _ d hd
    by_contra hnone
    exact hsolver.not_of_unsat (hask.means h.grounded) hunsat d ⟨hd, hnone⟩
  | found =>
    intro hex d hd
    obtain ⟨w, hw, hcovers⟩ := h.complete hex d hd
    exact ⟨w, List.mem_append_left _ hw, hcovers⟩
  | unread =>
    rename_i failure _ _ _
    rcases s.asked.fail_fst failure with hf | hf <;> rw [hf] <;> exact h.complete
  | _ => exact h.complete

theorem covering_of_start {first second : Firewall} {limit : Option Int} {s : Search}
    (h : start first second limit = .ok s) : Covering s := by
  refine ⟨parted_of_start h, ?_⟩
  rw [eq_of_start h]
  simp

theorem covering_after {first second : Firewall} {limit : Option Int} {s : Search}
    (hstart : start first second limit = .ok s) {calls : List Call}
    (hcalls : ∀ c ∈ calls, c.solver.CorrectOnPackets) : Covering (s.after calls) :=
  run_invariant (fun _ c hc hs => hs.next hc c.expired) (covering_of_start hstart) hcalls

/-- An exhausted search has found exactly the datagrams on which the firewalls differ. In
particular it has reported nothing exactly if they let the same datagrams through. -/
theorem differ_iff_covered_of_exhausted {first second : Firewall} {limit : Option Int} {s : Search}
    (hstart : start first second limit = .ok s) {calls : List Call}
    (hcalls : ∀ c ∈ calls, c.solver.CorrectOnPackets) (hex : (s.after calls).exhausted = true) :
    (∀ d, ¬(first.Admits d ↔ second.Admits d) ↔ ∃ w ∈ (s.after calls).witnesses, w.Covers d) ∧
      ((s.run calls).inconsistencies = [] ↔ ∀ d, first.Admits d ↔ second.Admits d) := by
  have hcover := covering_after hstart hcalls
  have hfirewalls : (s.after calls).firewalls = (first, second) := firewalls_after hstart
  have hwitnesses : (s.after calls).witnesses = (s.run calls).inconsistencies.map (·.packet) :=
    witnesses_after hstart
  have hiff : ∀ d, ¬(first.Admits d ↔ second.Admits d) ↔
      ∃ w ∈ (s.after calls).witnesses, w.Covers d := by
    intro d
    have hsound := hcover.sound
    have hcomplete := hcover.complete hex d
    rw [hfirewalls] at hsound hcomplete
    exact ⟨hcomplete, fun ⟨w, hw, hd⟩ => hsound w hw d hd⟩
  refine ⟨hiff, ?_⟩
  constructor
  · intro hnone d
    by_contra hdiffer
    obtain ⟨w, hw, -⟩ := (hiff d).mp hdiffer
    rw [hwitnesses, hnone] at hw
    cases hw
  · intro hsame
    have hno : ∀ w ∈ (s.after calls).witnesses, False := by
      intro w hw
      exact (hiff w.datagram).mpr ⟨w, hw, hcover.grounded w hw⟩ (hsame w.datagram)
    rw [hwitnesses] at hno
    simpa [List.eq_nil_iff_forall_not_mem] using hno

def web : Firewall where
  name := "web"
  rules := [
    { name := "http", localPorts := .ofRanges [⟨80, 80, by decide, by decide⟩], protocol := tcp },
    { name := "closed", enabled := false, action := .block }]

/-- Compared with a firewall that lets nothing through, one call finds the web requests and the next
one finds that there is nothing else. -/
theorem web_requests_are_all_that_differs :
    ∃ s, start web {} none = .ok s ∧
      (∀ c ∈ List.replicate 2 (Call.mk .exact false), c.solver.CorrectOnPackets) ∧
      (s.after (List.replicate 2 ⟨.exact, false⟩)).exhausted = true ∧
      (∀ d, ¬(web.Admits d ↔ Firewall.Admits {} d) ↔
        ∃ w ∈ (s.after (List.replicate 2 ⟨.exact, false⟩)).witnesses, w.Covers d) ∧
      ((s.run (List.replicate 2 ⟨.exact, false⟩)).inconsistencies = [] ↔
        ∀ d, web.Admits d ↔ Firewall.Admits {} d) := by
  have hstart : start web {} none = .ok { firewalls := (web, {}) } := rfl
  have hcalls : ∀ c ∈ List.replicate 2 (Call.mk .exact false), c.solver.CorrectOnPackets := by
    intro c hc
    rw [List.eq_of_mem_replicate hc]
    exact exact_correct.correctOnPackets
  have hex : (after { firewalls := (web, {}) } (List.replicate 2 ⟨.exact, false⟩)).exhausted = true := by
    decide +kernel
  exact ⟨_, hstart, hcalls, hex, differ_iff_covered_of_exhausted hstart hcalls hex⟩

end FirewallPolicy.Search
