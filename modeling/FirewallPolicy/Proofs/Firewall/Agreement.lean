import FirewallPolicy.Proofs.Query.Decision
import FirewallPolicy.Proofs.Search.Ending

/-!
Firewalls that decide all datagrams alike.

Neither the formula of the decision (`exists_formulas_of_agree`), nor a query
(`exists_results_of_agree`), nor the search for inconsistencies (`Search.exhausted_at_once`) can tell
two such firewalls apart.
-/

namespace FirewallPolicy.Firewall

variable {first second : Firewall} (h : ∀ d, first.Admits d ↔ second.Admits d)
include h

theorem exists_formulas_of_agree :
    ∃ f g, first.admits = .ok f ∧ second.admits = .ok g ∧
      ∀ d : Datagram, f.eval d.assignment = g.eval d.assignment := by
  obtain ⟨f, hf, hfmeans⟩ := first.admits_means
  obtain ⟨g, hg, hgmeans⟩ := second.admits_means
  refine ⟨f, g, hf, hg, fun d => ?_⟩
  rw [Bool.eq_iff_iff, hfmeans.holds_iff, hgmeans.holds_iff]
  exact h d

/-- Both queries get the same model, so they are about the same datagram. -/
theorem exists_results_of_agree {solver : Solver} (hsolver : solver.CorrectOnPackets)
    (hdecisive : solver.Decisive) {p : Packet} (hp : p.Fits) :
    ∃ a b, Query.run solver first p = .ok a ∧ Query.run solver second p = .ok b ∧
      a.allowed = b.allowed := by
  obtain ⟨d, -, hrun⟩ := Query.exists_datagram hsolver hdecisive (p.covers_datagram_iff.mpr hp)
  exact ⟨_, _, hrun first, hrun second, decide_eq_decide.mpr (h d)⟩

/-- The formulas are true of the same datagrams, a query about a packet whose fields fit is answered
alike, and the first call of a search finds that there is nothing to find. A limit of zero would
forbid that call, and no search has a negative one. -/
theorem indistinguishable_of_agree :
    (∃ f g, first.admits = .ok f ∧ second.admits = .ok g ∧
      ∀ d : Datagram, f.eval d.assignment = g.eval d.assignment) ∧
    ∀ solver : Solver, solver.CorrectOnPackets → solver.Decisive →
      (∀ p : Packet, p.Fits → ∃ a b, Query.run solver first p = .ok a ∧
        Query.run solver second p = .ok b ∧ a.allowed = b.allowed) ∧
      ∀ limit : Option Int, (∀ n, limit = some n → 0 < n) →
        ∃ s, Search.start first second limit = .ok s ∧ (s.next solver false).2 = .exhausted ∧
          (s.next solver false).1.exhausted = true := by
  refine ⟨exists_formulas_of_agree h, fun solver hsolver hdecisive => ⟨fun p hp => ?_, ?_⟩⟩
  · exact exists_results_of_agree h hsolver hdecisive hp
  · intro limit hlimit
    obtain ⟨s, hstart, hnext⟩ :=
      Search.exhausted_at_once h hlimit hsolver.toSoundOnPackets hdecisive
    exact ⟨s, hstart, congrArg Prod.snd hnext, congrArg (·.1.exhausted) hnext⟩

end FirewallPolicy.Firewall
