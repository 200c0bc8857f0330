import SingleFlight.Proofs.Scheduler.Calls
import SingleFlight.Proofs.Scheduler.Course

/-!
# The latest flights

With a pool, the flight of an action that is in the air is the latest one of its action. So is a flight that a request is
offered to, and one whose outcome is about to go to its callback.
-/

namespace SingleFlight.Scheduler

variable [Payloads] {s s' : Scheduler} {act : SchedulerAct} {c : Caller} {n m : Nat} {id : ActionId}
  {f g : Flight} {x y : Call} {events : List SchedulerEvent}

/-- No flight of the action was started after this one. -/
structure IsLatest (s : Scheduler) (id : ActionId) (n : Nat) : Prop where
  started : ∃ f, s.flights[n]? = some f ∧ f.action = id
  last : ∀ (m : Nat) (f : Flight), s.flights[m]? = some f → f.action = id → m ≤ n

theorem IsLatest.unique (h : s.IsLatest id n) (k : s.IsLatest id m) : n = m := by
  obtain ⟨⟨f, hf, ha⟩, hlast⟩ := h
  obtain ⟨⟨g, hg, hb⟩, hlast'⟩ := k
  exact Nat.le_antisymm (hlast' n f hf ha) (hlast m g hg hb)

/-! ## Flights that are started -/

theorem Move.launches (hm : Move s act s' events) (h : s.Sane) (hnone : s.flights[n]? = none)
    (hg : s'.flights[n]? = some g) : ∃ kind input, .queued n g.action kind input ∈ events := by
  have hc := hm.course h n
  rw [hnone, hg] at hc
  cases hc with
  | @started r input he => exact ⟨r.kind, input, by rw [he]; exact List.mem_cons_self⟩

theorem IsLatest.move (h : s.IsLatest id n) (hm : Move s act s' events) (hs : s.Sane)
    (hno : ∀ m kind input, .queued m id kind input ∉ events) : s'.IsLatest id n := by
  obtain ⟨⟨f, hf, ha⟩, hlast⟩ := h
  obtain ⟨g, hg, hp⟩ := hm.persists hf
  refine ⟨⟨g, hg, hp.action.trans ha⟩, fun m k hk hid => ?_⟩
  cases he : s.flights[m]? with
  | some e =>
      obtain ⟨k', hk', hp⟩ := hm.persists he
      cases hk.symm.trans hk'
      exact hlast m e he (hp.action.symm.trans hid)
  | none =>
      obtain ⟨kind, input, hq⟩ := hm.launches hs he hk
      exact absurd (hid ▸ hq) (hno m kind input)

theorem IsLatest.before (h : s'.IsLatest id n) (hm : Move s act s' events) (hf : s.flights[n]? = some f) :
    s.IsLatest id n := by
  obtain ⟨⟨g, hg, ha⟩, hlast⟩ := h
  obtain ⟨g', hg', hp⟩ := hm.persists hf
  cases hg.symm.trans hg'
  refine ⟨⟨f, hf, hp.action.symm.trans ha⟩, fun m k hk hid => ?_⟩
  obtain ⟨k', hk', hp⟩ := hm.persists hk
  exact hlast m k' hk' (hp.action.trans hid)

theorem Move.latest_launched {kind : ActionKind} {input : Payload} (hm : Move s act s' events) (hs : s.Sane)
    (he : .queued n id kind input ∈ events) : s'.IsLatest id n := by
  obtain ⟨g, hg, ha⟩ := hm.queued hs he
  refine ⟨⟨g, hg, ha⟩, fun m k hk _ => ?_⟩
  have hn : n = s.flights.length := by
    cases hm.news he rfl with
    | queued => rfl
  cases hk' : s.flights[m]? with
  | some e => exact hn ▸ Nat.le_of_lt (List.getElem?_eq_some_iff.mp hk').1
  | none => exact Nat.le_of_eq ((hm.started hs hk' hk).2.2.trans hn.symm)

/-! ## Who has the latest flight in hand -/

/-- A call inside of the scheduler is the innermost one. -/
theorem Orderly.innermost (h : s.Orderly) (hx : x ∈ s.callsOf c) (hin : x.isOutside = false) :
    ∃ rest, s.callsOf c = x :: rest := by
  have hout := (h c).outside
  cases hcs : s.callsOf c with
  | nil => rw [hcs] at hx; cases hx
  | cons y rest =>
      rw [hcs] at hx hout
      rcases List.mem_cons.mp hx with rfl | hx
      · exact ⟨rest, rfl⟩
      · have := hout x hx
        rw [hin] at this
        cases this

/-- The flights in the air, those that an input is offered to and those whose outcomes are on their way to the callbacks
are the latest ones of their actions. -/
structure Foremost (s : Scheduler) : Prop where
  airborne : ∀ id n, (id, n) ∈ s.inFlight → s.IsLatest id n
  offered : s.isClosed = false → ∀ n input, .offering n input ∈ s.callsOf .owner →
    ∃ f, s.flights[n]? = some f ∧ (f.action, n) ∈ s.inFlight
  delivered : ∀ n o, .delivering n o ∈ s.callsOf .owner → ∃ f, s.flights[n]? = some f ∧ s.IsLatest f.action n

theorem Move.airborne (hm : Move s act s' events) (hn : (id, n) ∈ s'.inFlight) :
    (id, n) ∈ s.inFlight ∨ ∃ kind input, .queued n id kind input ∈ events := by
  cases hm with
  | @launched _ _ id' input r =>
      rcases List.mem_append.mp hn with hn | hn
      · exact .inl hn
      · cases List.mem_singleton.mp hn
        exact .inr ⟨r.kind, input, List.mem_cons_self⟩
  | collected => exact .inl (List.mem_filter.mp hn).1
  | shut => cases hn
  | _ => exact .inl hn

/-- A flight is started by a call of the owner that looks its action up in vain. -/
theorem Move.looked_up {kind : ActionKind} {input : Payload} (hm : Move s act s' events) (hs : s.Sane)
    (he : .queued n id kind input ∈ events) : s.flightOf? id = none ∧
      ∃ rest, s.callsOf .owner = .applying id input :: rest := by
  cases hm.news he rfl with
  | @queued c refusal _ _ r rest hcs _ hnone =>
      obtain rfl := hs.regular.orderly.owner hs.pooled hcs (by simp [Call.suits])
      exact ⟨hnone, rest, hcs⟩

theorem Move.finishes (hm : Move s act s' events) (hs : s.Sane) (hd : SingleFlight.deliveries n events ≠ 0) :
    ∃ rest, s.callsOf .owner = .finishing n :: rest := by
  obtain ⟨e, he, hdel⟩ := List.countP_pos_iff.mp (Nat.pos_of_ne_zero hd)
  cases e with
  | delivered m i attempts =>
      obtain rfl : m = n := by simpa [SchedulerEvent.delivers] using hdel
      cases hm.news he rfl with
      | @delivered c _ _ _ rest hcs =>
          rcases hcs with hcs | hcs
          · obtain rfl := hs.regular.orderly.owner hs.pooled hcs (by simp [Call.suits])
            exact ⟨rest, hcs⟩
          · cases hs.regular.orderly.suited hs.pooled hcs
  | _ => cases hdel

theorem Foremost.step_offered (h : s.Foremost) (hm : Move s act s' events) (hs : s.Sane) (hopen : s'.isClosed = false)
    {input : Payload} (hx : .offering n input ∈ s'.callsOf .owner) :
    ∃ f, s'.flights[n]? = some f ∧ (f.action, n) ∈ s'.inFlight := by
  have hstays {f : Flight} {x : Call} {rest : List Call} (hf : s.flights[n]? = some f) (hin : (f.action, n) ∈ s.inFlight)
      (hcs : s.callsOf .owner = x :: rest) (hne : x ≠ .finishing n) :
      ∃ f, s'.flights[n]? = some f ∧ (f.action, n) ∈ s'.inFlight := by
    obtain ⟨g, hg, hp⟩ := hm.persists hf
    rcases hm.lands hs hin with hc | hin | hd
    · cases hc.symm.trans hopen
    · exact ⟨g, hg, hp.action ▸ hin⟩
    · obtain ⟨rest', hcs'⟩ := hm.finishes hs (by rw [hd]; exact Nat.one_ne_zero)
      cases hcs.symm.trans hcs'
      exact absurd rfl hne
  rcases hm.arises hx with hx | ha
  · obtain ⟨f, hf, hin⟩ := h.offered (hm.keeps.opened hopen) n input hx
    obtain ⟨rest, hcs⟩ := hs.regular.orderly.innermost hx rfl
    exact hstays hf hin hcs (by simp)
  · cases ha with
    | @found _ _ id _ _ rest hcs hn =>
        obtain ⟨f, -, hf, rfl, -⟩ := hs.charted.charted id n (mem_of_flightOf? hn)
        exact hstays hf (mem_of_flightOf? hn) hcs (by simp)
    | ran hcs => cases hs.regular.orderly.suited hs.pooled hcs

theorem Foremost.step_delivered (h : s.Foremost) (hm : Move s act s' events) (hs : s.Sane) {o : Outcome}
    (hx : .delivering n o ∈ s'.callsOf .owner) : ∃ f, s'.flights[n]? = some f ∧ s'.IsLatest f.action n := by
  have hstays {f : Flight} {x : Call} {rest : List Call} (hf : s.flights[n]? = some f) (hl : s.IsLatest f.action n)
      (hcs : s.callsOf .owner = x :: rest) (hne : ∀ id input, x ≠ .applying id input) :
      ∃ f, s'.flights[n]? = some f ∧ s'.IsLatest f.action n := by
    obtain ⟨g, hg, hp⟩ := hm.persists hf
    refine ⟨g, hg, hp.action ▸ hl.move hm hs fun m kind input he => ?_⟩
    obtain ⟨-, rest', hcs'⟩ := hm.looked_up hs he
    cases hcs.symm.trans hcs'
    exact hne _ _ rfl
  rcases hm.arises hx with hx | ha
  · obtain ⟨f, hf, hl⟩ := h.delivered n o hx
    obtain ⟨rest, hcs⟩ := hs.regular.orderly.innermost hx rfl
    exact hstays hf hl hcs (by simp)
  · cases ha with
    | collected hcs hf hn => exact hstays hf (h.airborne _ _ (mem_of_flightOf? hn)) hcs (by simp)
    | ran hcs | took hcs => cases hs.regular.orderly.suited hs.pooled hcs

theorem Foremost.move (h : s.Foremost) (hm : Move s act s' events) (hs : s.Sane) : s'.Foremost where
  airborne id n hn := by
    rcases hm.airborne hn with hn | ⟨kind, input, he⟩
    · refine (h.airborne id n hn).move hm hs fun m kind input he => ?_
      exact not_mem_of_flightOf? (hm.looked_up hs he).1 hn
    · exact hm.latest_launched hs he
  offered hopen n input hx := h.step_offered hm hs hopen hx
  delivered n o hx := h.step_delivered hm hs hx

end SingleFlight.Scheduler
