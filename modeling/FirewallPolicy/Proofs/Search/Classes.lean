import FirewallPolicy.Proofs.Search.Run

/-!
The classes of the witnesses have nothing in common.

The class of a witness is what it stands for. If the solver's models make the question true
(`Solver.SoundOnPackets`), a call adds one witness at most, and the class of a new one lies in what
is open (`witnesses_next`), the whole class and not only one datagram of it: the model makes the
question true, and the class is what extends the model (`open_of_covers`). So the firewalls differ on
all of it, and no earlier class has any of it. This is kept along every run as `Search.Parted`,
wherever the limit lies, whenever the deadline passes, and even if the solver denies a question
wrongly or does not know the answer.

Proved: `witnesses_pairwise_disjoint`, at every point of a run no datagram has the patterns of two
witnesses, and every pattern is that of some datagram.
-/

namespace FirewallPolicy.Search

/-- The classes of the witnesses are parts of the disagreement, and no two of them overlap. -/
structure Parted (s : Search) : Prop where
  grounded : s.Grounded
  sound : ∀ w ∈ s.witnesses, ∀ d, w.Covers d → Firewall.Differ s.firewalls.1 s.firewalls.2 d
  disjoint : s.witnesses.Pairwise fun w w' => ∀ d, ¬(w.Covers d ∧ w'.Covers d)

/-! ## One call -/

/-- The class of a new witness lies in what is open. -/
theorem open_of_covers {solver : Solver} (hsolver : solver.SoundOnPackets) {expired : Bool} {s : Search}
    (hs : s.Grounded) {q : Formula} (hask : Asks expired s q) {m : Model} (hsat : solver q = .sat m)
    {i : Inconsistency} (hi : s.inconsistency m = .ok i) {d : Datagram} (hd : i.packet.Covers d) :
    s.Open d := by
  have hmeans := hask.means hs
  obtain ⟨-, -, -, hcovers⟩ := of_inconsistency_eq_ok (hsolver.fits q _ m hmeans hsat) hi
  exact hsolver.of_bound hmeans hsat ((hcovers d).mp hd)

section Sound

variable {solver : Solver} (hsolver : solver.SoundOnPackets) {s : Search}
include hsolver

/-- A call leaves the witnesses as they are, or adds one whose class is open. -/
theorem witnesses_next (hs : s.Grounded) (expired : Bool) :
    (s.next solver expired).1.witnesses = s.witnesses ∨
      ∃ p : Packet, (s.next solver expired).1.witnesses = s.witnesses ++ [p] ∧
        ∀ d, p.Covers d → s.Open d := by
  have hadded := (next_moves solver expired s).witnesses_eq
  cases hi : (s.next solver expired).2.inconsistency? with
  | none =>
    left
    simpa [hi] using hadded
  | some i =>
    right
    obtain ⟨q, m, hask, hsat, hread⟩ := exists_model_of_found (Step.eq_found_of_inconsistency? hi)
    refine ⟨i.packet, by simpa [hi] using hadded, fun d hd => ?_⟩
    exact open_of_covers hsolver hs hask hsat hread hd

theorem Parted.next (h : Parted s) (expired : Bool) : Parted (s.next solver expired).1 := by
  have hgrounded := h.grounded.next hsolver.fits expired
  have hfirewalls := (next_moves solver expired s).firewalls_eq
  rcases witnesses_next hsolver h.grounded expired with hsame | ⟨p, hadded, hopen⟩
  · exact ⟨hgrounded, by rw [hsame, hfirewalls]; exact h.sound, by rw [hsame]; exact h.disjoint⟩
  · refine ⟨hgrounded, ?_, ?_⟩
    · rw [hadded, hfirewalls]
      intro w hw d hd
      rcases List.mem_append.mp hw with hw | hw
      · exact h.sound w hw d hd
      · rw [List.mem_singleton.mp hw] at hd
        exact (hopen d hd).1
    · rw [hadded, List.pairwise_append]
      refine ⟨h.disjoint, by simp, ?_⟩
      intro w hw w' hw' d hd
      rw [List.mem_singleton.mp hw'] at hd
      exact (hopen d hd.2).2 ⟨w, hw, hd.1⟩

end Sound

/-! ## Runs -/

theorem parted_of_start {first second : Firewall} {limit : Option Int} {s : Search}
    (h : start first second limit = .ok s) : Parted s := by
  refine ⟨grounded_of_start h, ?_, ?_⟩ <;> rw [eq_of_start h] <;> simp

theorem parted_after {first second : Firewall} {limit : Option Int} {s : Search}
    (hstart : start first second limit = .ok s) {calls : List Call}
    (hcalls : ∀ c ∈ calls, c.solver.SoundOnPackets) : Parted (s.after calls) :=
  run_invariant (fun _ c hc hs => hs.next hc c.expired) (parted_of_start hstart) hcalls

/-- The firewalls differ on the whole class of a packet reported. -/
theorem differ_of_covers {first second : Firewall} {limit : Option Int} {s : Search}
    (hstart : start first second limit = .ok s) {calls : List Call}
    (hcalls : ∀ c ∈ calls, c.solver.SoundOnPackets) {i : Inconsistency}
    (hi : i ∈ (s.run calls).inconsistencies) {d : Datagram} (hd : i.packet.Covers d) :
    Firewall.Differ first second d := by
  have hsound := (parted_after hstart hcalls).sound
  rw [firewalls_after hstart, witnesses_after hstart] at hsound
  exact hsound i.packet (List.mem_map_of_mem hi) d hd

/-- No datagram belongs to the classes of two witnesses. Every class has a datagram, and is what the
pattern of its witness is true of. -/
theorem witnesses_pairwise_disjoint {first second : Firewall} {limit : Option Int} {s : Search}
    (hstart : start first second limit = .ok s) {calls : List Call}
    (hcalls : ∀ c ∈ calls, c.solver.SoundOnPackets) :
    ((s.after calls).witnesses.Pairwise fun w w' => ∀ d, ¬(w.Covers d ∧ w'.Covers d)) ∧
      ∀ w ∈ (s.after calls).witnesses, (∃ d, w.Covers d) ∧
        ∃ f, w.pattern = .ok f ∧ ∀ d : Datagram, f.eval d.assignment = true ↔ w.Covers d := by
  have hparted := parted_after hstart hcalls
  refine ⟨hparted.disjoint, fun w hw => ?_⟩
  have hself := hparted.grounded w hw
  obtain ⟨f, hf, hmeans⟩ := Packet.pattern_means hself
  exact ⟨⟨w.datagram, hself⟩, f, hf, hmeans.holds_iff⟩

def tcp : Protocol := ⟨false, 6, by decide⟩

def udp : Protocol := ⟨false, 17, by decide⟩

def names : Firewall where
  name := "names"
  rules := [
    { name := "over tcp", localPorts := .ofRanges [⟨53, 53, by decide, by decide⟩], protocol := tcp },
    { name := "over udp", localPorts := .ofRanges [⟨53, 53, by decide, by decide⟩], protocol := udp }]

/-- Questions to name servers are found in two classes, one for each protocol. A limit of two ends
the search then, before a deadline that has passed is looked at. -/
theorem name_questions_are_found_apart :
    ∃ s, start names {} (some 2) = .ok s ∧
      (∀ c ∈ [Call.mk .exact false, ⟨.exact, false⟩, ⟨.exact, true⟩], c.solver.SoundOnPackets) ∧
      (s.after [⟨.exact, false⟩, ⟨.exact, false⟩, ⟨.exact, true⟩]).witnesses =
        [{ destinationPort := some 53, protocol := some 6 },
          { destinationPort := some 53, protocol := some 17 }] ∧
      (s.after [⟨.exact, false⟩, ⟨.exact, false⟩, ⟨.exact, true⟩]).witnesses.Pairwise
        fun w w' => ∀ d, ¬(w.Covers d ∧ w'.Covers d) := by
  have hstart : start names {} (some 2) = .ok { firewalls := (names, {}), limit := some 2 } := rfl
  have hcalls : ∀ c ∈ [Call.mk .exact false, ⟨.exact, false⟩, ⟨.exact, true⟩],
      c.solver.SoundOnPackets := by
    simpa using exact_correct.soundOnPackets
  refine ⟨_, hstart, hcalls, ?_, (witnesses_pairwise_disjoint hstart hcalls).1⟩
  decide +kernel

end FirewallPolicy.Search
