import SingleFlight.Proofs.Scheduler.Inline

/-!
# Getting on

Without a pool the innermost call of a thread always gets on, whatever the others do, and what it owes to a callback
goes there in the end.
-/

namespace SingleFlight

variable [Payloads]

/-- How far a call is from its end. -/
def Call.rank : Call → Nat
  | .running _ .starting => 5
  | .running _ (.invoking _ _) => 4
  | .running _ (.settling _ _) => 3
  | .taking _ => 2
  | .delivering _ _ => 1
  | _ => 0

namespace Scheduler

variable {s s' : Scheduler} {act : SchedulerAct} {c : Caller} {n : Nat} {f : Flight} {x : Call} {rest : List Call}
  {events : List SchedulerEvent}

/-- The events start a callback of the thread with the outcome of the flight. -/
def Heard (c : Caller) (n : Nat) (events : List SchedulerEvent) : Prop :=
  ∃ id kind d, .notified c n id kind d ∈ events ∧ d.callsBack = true

/-- The innermost call returns or comes closer to its end, and gives what it owes or still owes it. -/
inductive GetsOn (s : Scheduler) (c : Caller) (x : Call) (rest : List Call) (s' : Scheduler)
    (events : List SchedulerEvent) : Prop
  | done : s'.callsOf c = rest → (∀ n, s.Owes n x → Heard c n events) → GetsOn s c x rest s' events
  | next {y : Call} : s'.callsOf c = y :: rest → y.rank < x.rank →
      (∀ n, s.Owes n x → Heard c n events ∨ s'.Owes n y) → GetsOn s c x rest s' events

theorem Owes.rank_pos (h : s.Owes n x) : 0 < x.rank := by
  cases x with
  | running m stage => cases stage <;> exact Nat.succ_pos _
  | taking | delivering => exact Nat.succ_pos _
  | _ => exact h.elim

theorem step_advance (hcs : s.callsOf c = x :: rest) (refusal : Option IoError) :
    s.step (.advance c refusal) = s.advanceCall c refusal rest x := by
  simp [step, advance, hcs]

/-! ## Steps -/

section
variable {r : Registration} {input : Payload} {token : Token} {o : Outcome}

/-- A run that is about to start calls its function, unless its input cannot be copied. -/
theorem starts (hcs : s.callsOf c = .running n .starting :: rest) (hf : s.flights[n]? = some f)
    (hr : s.registration? f.action = some r) (hat : f.IsAt .starting) :
    ∃ s' events, s.step (.advance c none) = some (s', events) ∧ GetsOn s c (.running n .starting) rest s' events := by
  rw [step_advance hcs]
  have hset : (s.setFlight n f.begun).flights[n]? = some f.begun := by rw [flights_setFlight hf, if_pos rfl]
  cases hcopy : f.input.copy with
  | error message =>
      have hstart : f.start = (f.begun, .panicked message) := by
        simp [Flight.start, hat.1, hat.2, Flight.attemptLimit, UInt32.size, hcopy, Flight.begun]
      refine ⟨(s.setFlight n f.begun).setCalls c rest, [.panicked c message], ?_, .done (callsOf_setCalls_self _ _ _) ?_⟩
      · simp [advanceCall, runInline, runStep, hf, hstart, fault]
      · rintro m ⟨rfl, f', -, hf', -, -, copy, hok⟩
        cases hf.symm.trans hf'
        rw [hcopy] at hok; cases hok
  | ok input =>
      have hstart : f.start = (f.begun, .invoke input ⟨f.signal.generation⟩) := by
        simp [Flight.start, hat.1, hat.2, Flight.attemptLimit, UInt32.size, hcopy, Flight.begun]
      cases hcall : r.callInput input with
      | error failure =>
          refine ⟨(s.setFlight n f.begun).setCalls c
            (.running n (.settling ⟨f.signal.generation⟩ (.error failure)) :: rest), [], ?_, ?_⟩
          · simp [advanceCall, runInline, runStep, hf, hstart, hr, hcall, Scheduler.goOn]
          · refine .next (callsOf_setCalls_self _ _ _) (by simp [Call.rank]) ?_
            rintro m ⟨rfl, f', r', hf', hr', hheard, -⟩
            cases hf.symm.trans hf'
            exact .inr ⟨rfl, f.begun, r', hset, hr', Registration.callsBack_error hheard failure⟩
      | ok given =>
          refine ⟨(s.setFlight n f.begun).setCalls c (.running n (.invoking given ⟨f.signal.generation⟩) :: rest),
            [.called c n f.action given ⟨f.signal.generation⟩], ?_, ?_⟩
          · simp [advanceCall, runInline, runStep, hf, hstart, hr, hcall, Scheduler.goOn]
          · refine .next (callsOf_setCalls_self _ _ _) (by simp [Call.rank]) ?_
            rintro m ⟨rfl, f', r', hf', hr', hheard, -⟩
            cases hf.symm.trans hf'
            exact .inr ⟨rfl, f.begun, r', hset, hr', hheard⟩

/-- A function may panic, which is heard of wherever a failure is. -/
theorem panics (hcs : s.callsOf c = .running n (.invoking input token) :: rest) (hf : s.flights[n]? = some f)
    (hr : s.registration? f.action = some r) :
    ∃ s' events, s.step (.reply c (.panicked default)) = some (s', events) ∧
      GetsOn s c (.running n (.invoking input token)) rest s' events := by
  refine ⟨s.setCalls c (.running n (.settling token (Flight.caught (r.outcome (.panicked default)))) :: rest), [], ?_, ?_⟩
  · simp [step, reply, hcs, hf, hr, Scheduler.goOn]
  · refine .next (callsOf_setCalls_self _ _ _) (by simp [Call.rank]) ?_
    rintro m ⟨rfl, f', r', hf', hr', hheard⟩
    exact .inr ⟨rfl, f', r', hf', hr', Registration.callsBack_error hheard _⟩

theorem settles (hcs : s.callsOf c = .running n (.settling token o) :: rest) (hf : s.flights[n]? = some f)
    (hsig : f.signal = {}) (hat : f.IsAt (.settling token o)) :
    ∃ s' events, s.step (.advance c none) = some (s', events) ∧
      GetsOn s c (.running n (.settling token o)) rest s' events := by
  have hset (g : Flight) : (s.setFlight n g).flights[n]? = some g := by rw [flights_setFlight hf, if_pos rfl]
  have hgen : f.signal.generation = token.started := by rw [hsig, hat.2]
  refine ⟨(s.setFlight n { f with output := some o, phase := .completed }).setCalls c (.taking n :: rest),
    [.completed n f.action token.started o.toBool], ?_, ?_⟩
  · rw [step_advance hcs]
    simp [advanceCall, runInline, runStep, hf, Flight.settle, hat.1, Token.isSuperseded, hgen, Scheduler.goOn]
  · refine .next (callsOf_setCalls_self _ _ _) (by simp [Call.rank]) ?_
    rintro m ⟨rfl, f', r', hf', hr', hback⟩
    cases hf.symm.trans hf'
    exact .inr ⟨rfl, _, r', o, hset _, hr', rfl, hback⟩

theorem lands (hcs : s.callsOf c = .taking n :: rest) (hf : s.flights[n]? = some f) (hd : f.phase = .completed)
    (ho : f.output = some o) :
    ∃ s' events, s.step (.advance c none) = some (s', events) ∧ GetsOn s c (.taking n) rest s' events := by
  refine ⟨(s.setFlight n f.landed).setCalls c (.delivering n o :: rest), [.delivered n f.action f.attempts], ?_, ?_⟩
  · rw [step_advance hcs]
    simp [advanceCall, takeOutcome, hf, Flight.take, hd, ho, Scheduler.goOn, Flight.landed]
  · refine .next (callsOf_setCalls_self _ _ _) (by simp [Call.rank]) ?_
    rintro m ⟨rfl, f', r', o', hf', hr', ho', hback⟩
    cases hf.symm.trans hf'
    cases ho.symm.trans ho'
    exact .inr ⟨rfl, f.landed, r', by simp [flights_setFlight hf], hr', hback⟩

theorem gives (hcs : s.callsOf c = .delivering n o :: rest) (hf : s.flights[n]? = some f)
    (hr : s.registration? f.action = some r) :
    ∃ s' events, s.step (.advance c none) = some (s', events) ∧ GetsOn s c (.delivering n o) rest s' events := by
  rw [step_advance hcs]
  have howes {d : Delivery} {events : List SchedulerEvent} (hd : r.deliver o = d)
      (he : .notified c n r.id r.kind d ∈ events) (m : Nat) (hm : s.Owes m (.delivering n o)) : Heard c m events := by
    obtain ⟨rfl, f', r', hf', hr', hback⟩ := hm
    cases hf.symm.trans hf'
    cases hr.symm.trans hr'
    exact ⟨r.id, r.kind, d, he, hd ▸ hback⟩
  cases hd : r.deliver o with
  | result | sink =>
      refine ⟨s.setCalls c (.calling n :: rest), _, by simp [advanceCall, deliver, hf, hr, hd, Scheduler.goOn]; rfl, ?_⟩
      exact .next (callsOf_setCalls_self _ _ _) (by simp [Call.rank]) fun m hm => .inl (howes hd List.mem_cons_self m hm)
  | unreported | none =>
      refine ⟨s.setCalls c rest, _, by simp [advanceCall, deliver, hf, hr, hd, finish]; rfl, ?_⟩
      exact .done (callsOf_setCalls_self _ _ _) fun m hm => howes hd List.mem_cons_self m hm

end

/-- The innermost call of a thread gets on, if need be because its function panics or its callback returns. -/
theorem Inline.gets_on (h : s.Inline) (hcs : s.callsOf c = x :: rest) :
    ∃ act s' events, (∀ job, act ≠ .run job) ∧ s.step act = some (s', events) ∧ GetsOn s c x rest s' events := by
  have hready := h.sole.ready c x (hcs ▸ List.mem_cons_self)
  have hadvance (hgo : ∃ s' events, s.step (.advance c none) = some (s', events) ∧ GetsOn s c x rest s' events) :
      ∃ act s' events, (∀ job, act ≠ .run job) ∧ s.step act = some (s', events) ∧ GetsOn s c x rest s' events :=
    ⟨.advance c none, hgo.choose, hgo.choose_spec.choose, by simp, hgo.choose_spec.choose_spec⟩
  cases x with
  | running n stage =>
      obtain ⟨f, r, hf, hr, hsig, hat⟩ := hready
      cases stage with
      | starting => exact hadvance (starts hcs hf hr hat)
      | invoking input token =>
          obtain ⟨s', events, hgo⟩ := panics hcs hf hr
          exact ⟨.reply c (.panicked default), s', events, by simp, hgo⟩
      | settling token o => exact hadvance (settles hcs hf hsig hat)
  | taking n =>
      obtain ⟨f, r, o, hf, -, hd, ho⟩ := hready
      exact hadvance (lands hcs hf hd ho)
  | delivering n o =>
      obtain ⟨f, r, hf, hr⟩ := hready
      exact hadvance (gives hcs hf hr)
  | calling n =>
      refine ⟨.leave c none, s.setCalls c rest, [.returned c], by simp, by simp [step, leave, hcs, finish], ?_⟩
      exact .done (callsOf_setCalls_self _ _ _) fun m hm => hm.elim
  | closing =>
      obtain ⟨k, hk⟩ := Option.isSome_iff_exists.mp hready
      refine hadvance ⟨s.setCalls c rest, [.closed k.flights.length, .returned c], ?_, ?_⟩
      · rw [step_advance hcs]
        simp [advanceCall, advanceClosing, hk, h.closing k hk, finish]
      · exact .done (callsOf_setCalls_self _ _ _) fun m hm => hm.elim
  | posting | applying | offering | submitting | finishing => cases h.orderly.suited h.poolless hcs

theorem Owes.outside (h : s.Owes n x) (hout : x.isOutside = true) (hm : Move s act s' events) : s'.Owes n x := by
  cases x with
  | running m stage =>
      cases stage with
      | invoking =>
          obtain ⟨rfl, f, r, hf, hr, hheard⟩ := h
          obtain ⟨g, hg, hp⟩ := hm.persists hf
          refine ⟨rfl, g, r, hg, ?_, hheard⟩
          rw [hp.action, hm.keeps.registration?]; exact hr
      | _ => cases hout
  | calling => exact h.elim
  | _ => cases hout

end Scheduler

end SingleFlight
