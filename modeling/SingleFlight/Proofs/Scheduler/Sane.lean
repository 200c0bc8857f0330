import SingleFlight.Proofs.Scheduler.Air

/-!
# Sane schedulers

The invariant of a scheduler with a pool: calls, pool and the list of the flights in the air are in order,
every flight has a sound standing, and of the flights of one action one at most may still do something.
-/

namespace SingleFlight.Scheduler

variable [Payloads] {s s' : Scheduler} {act : SchedulerAct} {n m : Nat} {f : Flight} {events : List SchedulerEvent}

/-- Of the flights of one action one at most may still do something. -/
def Exclusive (s : Scheduler) : Prop :=
  ∀ (n m : Nat) (f g : Flight), s.flights[n]? = some f → s.flights[m]? = some g → f.action = g.action →
    (s.standing n).Busy → (s.standing m).Busy → n = m

/-- What holds between any two moves of a scheduler with a pool. -/
structure Sane (s : Scheduler) : Prop where
  pooled : s.isSynchronous = false
  regular : s.Regular
  charted : s.Charted
  settled : s.Settled
  sound : ∀ n, (s.standing n).Sound
  spent : s.isClosed = false → ∀ n, (s.standing n).Spent
  exclusive : s.Exclusive

/-! ## Flights that are started -/

theorem getElem?_of_length_eq {l l' : List Flight} (h : l'.length = l.length) (h0 : l[n]? = none) : l'[n]? = none := by
  rw [List.getElem?_eq_none_iff] at h0 ⊢
  omega

/-- With a pool a flight is only started if its action has none in the air. -/
theorem Move.started (hm : Move s act s' events) (h : s.Sane) (h0 : s.flights[n]? = none)
    (h1 : s'.flights[n]? = some f) : s.isClosed = false ∧ s.flightOf? f.action = none ∧ n = s.flights.length := by
  have hsame (hlen : s'.flights.length = s.flights.length) : False := by
    rw [getElem?_of_length_eq hlen h0] at h1; cases h1
  cases hm with
  | @launched _ _ id input r _ _ hopen hnone hr =>
      have hid : r.id = id := h.charted.numbered id.index r hr
      rw [flights_setCalls, flights_concat] at h1
      split at h1
      · cases h1
        exact ⟨hopen, by simpa [Flight.of, hid] using hnone, by assumption⟩
      · cases h0.symm.trans h1
  | inlined _ hs => cases h.pooled.symm.trans hs
  | superseded | rearmed | collected | ranInline | took | worked => exact absurd (by simp [setFlight]) hsame
  | warned | alarmed | gaveUp => exact absurd (by simp) hsame
  | _ => exact absurd rfl hsame

theorem Sane.busy_some (h : s.Sane) (hb : (s.standing n).Busy) : ∃ f, s.flights[n]? = some f := by
  cases hf : s.flights[n]? with
  | some f => exact ⟨f, rfl⟩
  | none =>
      have hs := h.sound n
      have hp : (s.standing n).phase = none := by simp [standing, hf]
      simp only [Standing.Sound, hp] at hs
      rcases hb with ⟨-, hb⟩ | hb
      · exact absurd hp hb
      · omega

/-- While the scheduler is open, a flight that may still do something is in the air. -/
theorem Sane.busy_inFlight (h : s.Sane) (hopen : s.isClosed = false) (hf : s.flights[n]? = some f)
    (hb : (s.standing n).Busy) : (f.action, n) ∈ s.inFlight := by
  refine h.charted.complete hopen n f hf fun hc => ?_
  have hp : (s.standing n).phase = some .closed := by simp [standing, hf, hc]
  have hspent := h.spent hopen n hp
  rcases hb with ⟨hb, -⟩ | hb
  · exact hb hp
  · omega

/-! ## Moves -/

theorem Move.exclusive (hm : Move s act s' events) (h : s.Sane) : s'.Exclusive := by
  intro n m f g hf hg hact hn hm'
  -- each of the two was busy before or is the one that is started now
  have hbefore {k : Nat} {e : Flight} (he : s'.flights[k]? = some e) (hb : (s'.standing k).Busy) :
      (∃ d, s.flights[k]? = some d ∧ d.action = e.action ∧ (s.standing k).Busy) ∨ s.flights[k]? = none := by
    rcases (hm.shift h.regular h.pooled k).busy hb with hb | ⟨hnone, -⟩
    · obtain ⟨d, hd⟩ := h.busy_some hb
      obtain ⟨e', he', hp⟩ := hm.persists hd
      cases he.symm.trans he'
      exact .inl ⟨d, hd, hp.action.symm, hb⟩
    · exact .inr (by simpa [standing] using hnone)
  have hclash {j k : Nat} {d e : Flight} (hj : s'.flights[j]? = some d) (hnone : s.flights[j]? = none)
      (hk : s.flights[k]? = some e) (hb : (s.standing k).Busy) (ha : e.action = d.action) : False := by
    obtain ⟨hopen, hfree, -⟩ := hm.started h hnone hj
    exact not_mem_of_flightOf? hfree (ha ▸ h.busy_inFlight hopen hk hb)
  rcases hbefore hf hn with ⟨f', hf', ha, hb⟩ | hnone
  · rcases hbefore hg hm' with ⟨g', hg', ha', hb'⟩ | hnone'
    · exact h.exclusive n m f' g' hf' hg' (ha.trans (hact.trans ha'.symm)) hb hb'
    · exact (hclash hg hnone' hf' hb (ha.trans hact)).elim
  · rcases hbefore hg hm' with ⟨g', hg', ha', hb'⟩ | hnone'
    · exact (hclash hf hnone hg' hb' (ha'.trans hact.symm)).elim
    · exact (hm.started h hnone hf).2.2.trans (hm.started h hnone' hg).2.2.symm

theorem Move.sane (hm : Move s act s' events) (h : s.Sane) : s'.Sane where
  pooled := hm.keeps.synchronous.trans h.pooled
  regular := hm.regular h.regular
  charted := hm.charted h.charted h.regular h.pooled
  settled := hm.settled h.settled
  sound n := (hm.shift h.regular h.pooled n).sound (h.sound n)
  spent hopen n := by
    have hopen' : ¬ s'.isClosed = true := by simp [hopen]
    exact (hm.shift h.regular h.pooled n).spent hopen' (h.sound n) (h.spent (hm.keeps.opened hopen) n)
  exclusive := hm.exclusive h

end SingleFlight.Scheduler
