import SingleFlight.Proofs.Scheduler.Moves

/-!
# What events tell

Most events only answer a call or report what the pool does. The others are news of a request or of a flight: it
is posted, it starts a flight or becomes its newer input, the flight is entered or run, its outcome is taken or
goes to its callback; or they tell that the scheduler is closed. Each kind of news comes from one kind of move.
-/

namespace SingleFlight

variable [Payloads]

/-- Whether an event is news of a request, of a flight or of the end. -/
def SchedulerEvent.isNews : SchedulerEvent → Bool
  | .posted _ _ => true
  | .queued _ _ _ _ => true
  | .superseded _ _ _ _ => true
  | .rearmed _ _ _ _ => true
  | .called _ _ _ _ _ => true
  | .retried _ _ _ _ => true
  | .completed _ _ _ _ => true
  | .delivered _ _ _ => true
  | .notified _ _ _ _ _ => true
  | .pool (.ran _ _) => true
  | .closed _ => true
  | _ => false

namespace Scheduler

variable {s s' : Scheduler} {act : SchedulerAct} {c : Caller} {n : Nat} {f g : Flight} {e : SchedulerEvent}
  {events : List SchedulerEvent}

/-- A thread runs the flight and is at this stage. -/
inductive RunsAt (s : Scheduler) (n : Nat) (stage : RunStage) : Caller → Prop
  | worker {w p} : s.callsOf (.worker w) = [] → s.pool = some p →
      p.phase? w = some (.working n (.running stage)) → RunsAt s n stage (.worker w)
  | inline {c rest} : s.callsOf c = .running n stage :: rest → RunsAt s n stage c

/-- `News s act e`: the step `act` brings the news `e`. -/
inductive News (s : Scheduler) : SchedulerAct → SchedulerEvent → Prop
  | sent {c refusal id input rest} : s.callsOf c = .posting id input :: rest →
      News s (.advance c refusal) (.posted c (.request id input))
  | queued {c refusal id input r rest} : s.callsOf c = .applying id input :: rest → s.isClosed = false →
      s.flightOf? id = none → s.registration? id = some r →
      News s (.advance c refusal) (.queued s.flights.length id r.kind input)
  | superseded {c refusal n input f rest} : s.callsOf c = .offering n input :: rest → s.flights[n]? = some f →
      f.phase ≠ .closed → f.input.compare input = .ok false →
      News s (.advance c refusal) (.superseded n f.action input (f.signal.generation + 1))
  | rearmed {c refusal n input f rest} : s.callsOf c = .offering n input :: rest → s.flights[n]? = some f →
      f.phase = .completed → f.input.compare input = .ok false →
      News s (.advance c refusal) (.rearmed n f.action input (f.signal.generation + 1))
  | called {c refusal n f input token} : RunsAt s n .starting c → s.flights[n]? = some f →
      f.phase ≠ .closed → News s (.advance c refusal) (.called c n f.action input token)
  | retried {c refusal n f token outcome} : RunsAt s n (.settling token outcome) c → s.flights[n]? = some f →
      f.phase ≠ .closed → News s (.advance c refusal) (.retried n f.action token.started f.attempts)
  | completed {c refusal n f token outcome} : RunsAt s n (.settling token outcome) c → s.flights[n]? = some f →
      f.phase ≠ .closed →
      News s (.advance c refusal) (.completed n f.action token.started outcome.toBool)
  | delivered {c refusal n f rest} : s.callsOf c = .finishing n :: rest ∨ s.callsOf c = .taking n :: rest →
      s.flights[n]? = some f → f.phase = .completed →
      News s (.advance c refusal) (.delivered n f.action f.attempts)
  | notified {c refusal n outcome f r rest} : s.callsOf c = .delivering n outcome :: rest → s.flights[n]? = some f →
      s.registration? f.action = some r →
      News s (.advance c refusal) (.notified c n r.id r.kind (r.deliver outcome))
  | ran {w refusal n p} : s.callsOf (.worker w) = [] → s.pool = some p → p.phase? w = some (.ready n) →
      News s (.advance (.worker w) refusal) (.pool (.ran w n))
  | handedBack {w refusal n panic p} : s.callsOf (.worker w) = [] → s.pool = some p →
      p.phase? w = some (.worked n panic .posting) →
      News s (.advance (.worker w) refusal) (.posted (.worker w) (.handBack n))
  | closed {c refusal k rest} : s.callsOf c = .closing :: rest → s.closing = some k →
      k.stage = .dropping [] → News s (.advance c refusal) (.closed k.flights.length)

/-! ## Every move -/

theorem Turn.news {cs cs' : List Call} (h : Turn s act c cs cs' events) (hcs : s.callsOf c = cs) (he : e ∈ events)
    (hn : e.isNews = true) : News s act e := by
  cases h with
  | posted =>
      rcases List.mem_cons.mp he with rfl | he
      · exact .sent hcs
      · obtain rfl := List.mem_singleton.mp he; cases hn
  | @notified c refusal n outcome f r rest d hf hr hd =>
      obtain rfl := List.mem_singleton.mp he
      subst hd
      exact .notified hcs hf hr
  | settled hf hr hd =>
      subst hd
      rcases List.mem_cons.mp he with rfl | he
      · exact .notified hcs hf hr
      · obtain rfl := List.mem_singleton.mp he; cases hn
  | closed hk hstage =>
      rcases List.mem_cons.mp he with rfl | he
      · exact .closed hcs hk hstage
      · obtain rfl := List.mem_singleton.mp he; cases hn
  | _ => simp only [List.mem_cons, List.not_mem_nil, or_false] at he <;> rcases he with rfl | rfl <;> cases hn

theorem Running.news {stage : RunStage} {next : RunStep} {refusal : Option IoError}
    (h : Running s c n f stage g next events) (hat : RunsAt s n stage c) (hf : s.flights[n]? = some f)
    (he : e ∈ events) : News s (.advance c refusal) e := by
  cases h with
  | called hc => obtain rfl := List.mem_singleton.mp he; exact .called hat hf hc
  | retried hc => obtain rfl := List.mem_singleton.mp he; exact .retried hat hf hc
  | stored hc => obtain rfl := List.mem_singleton.mp he; exact .completed hat hf hc
  | _ => cases he

theorem submissionAnswer_plain {pool : String} {id : ActionId} {error : Option PoolError}
    (he : e ∈ submissionAnswer c pool id error) : e.isNews = false := by
  unfold submissionAnswer at he
  split at he
  all_goals
    simp only [List.mem_cons, List.not_mem_nil, or_false] at he
    rcases he with rfl | rfl <;> rfl

theorem Labour.news {w : Nat} {p : Pool Nat WorkStage} {a b : WorkerPhase Nat WorkStage}
    (h : Labour s w (p.workerName w) n f act a g b events) (hcs : s.callsOf (.worker w) = []) (hp : s.pool = some p)
    (hw : p.phase? w = some a) (hf : s.flights[n]? = some f) (he : e ∈ events) (hn : e.isNews = true) :
    News s act e := by
  cases h with
  | bound =>
      simp only [List.mem_cons, List.not_mem_nil, or_false] at he
      rcases he with rfl | rfl | rfl
      · cases hn
      · cases hn
      · exact .ran hcs hp hw
  | @ran refusal stage g next events hr =>
      rcases List.mem_append.mp he with he | he
      · exact hr.news (.worker hcs hp hw) hf he
      · unfold RunStep.panics at he
        split at he
        · obtain rfl := List.mem_singleton.mp he; cases hn
        · cases he
  | posted =>
      rcases List.mem_cons.mp he with rfl | he
      · exact .handedBack hcs hp hw
      · obtain rfl := List.mem_singleton.mp he; cases hn
  | _ => simp only [List.mem_cons, List.not_mem_nil, or_false] at he <;> rcases he with rfl | rfl <;> cases hn

theorem Move.news (hm : Move s act s' events) (he : e ∈ events) (hn : e.isNews = true) : News s act e := by
  cases hm with
  | turned ht => exact ht.news rfl he hn
  | launched hcs hopen hnone hr => obtain rfl := List.mem_singleton.mp he; exact .queued hcs hopen hnone hr
  | superseded hcs hf hc _ hx =>
      rcases List.mem_cons.mp he with rfl | he
      · exact .superseded hcs hf hc hx
      · obtain rfl := List.mem_singleton.mp he; cases hn
  | rearmed hcs hf hd hx => obtain rfl := List.mem_singleton.mp he; exact .rearmed hcs hf hd hx
  | submitted _ _ _ ha =>
      rcases List.mem_append.mp he with he | he
      · obtain ⟨pooled, hp, rfl⟩ := List.mem_map.mp he
        cases ha <;> simp only [List.mem_cons, List.not_mem_nil, or_false] at hp <;> rcases hp with rfl | rfl <;> cases hn
      · rw [submissionAnswer_plain he] at hn; cases hn
  | collected hcs hf _ hd => obtain rfl := List.mem_singleton.mp he; exact .delivered (.inl hcs) hf hd
  | took hcs hf hd => obtain rfl := List.mem_singleton.mp he; exact .delivered (.inr hcs) hf hd
  | ranInline hcs hf hr =>
      rcases List.mem_append.mp he with he | he
      · exact hr.news (.inline hcs) hf he
      · unfold RunStep.faults at he
        split at he
        · obtain rfl := List.mem_singleton.mp he; cases hn
        · cases he
  | worked hcs hp hw hf hl => exact hl.news hcs hp hw hf he hn
  | idled _ _ _ _ hev => rcases hev with rfl | rfl <;> simp at he; subst he; cases hn
  | halted _ _ _ _ hq hno =>
      rcases Pool.halting_events hq with ⟨_, rfl⟩ | rfl | ⟨_, _, rfl⟩ | ⟨_, rfl⟩
      · exact absurd rfl (hno _)
      · cases he
      · obtain rfl := List.mem_singleton.mp he; cases hn
      · obtain rfl := List.mem_singleton.mp he; cases hn
  | _ => simp only [List.mem_cons, List.not_mem_nil, or_false] at he <;> rcases he with rfl | rfl <;> cases hn

end Scheduler

end SingleFlight
