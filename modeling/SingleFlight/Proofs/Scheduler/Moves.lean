import SingleFlight.Proofs.Flight.Operations
import SingleFlight.Proofs.Pool.Steps
import SingleFlight.Scheduler.Step

/-!
# What a step of a scheduler can do

The rules of the step function one by one, as relations: how a thread gets on with a run, how a worker
gets on with its flight, how the calls of a thread take turns, and all moves of a scheduler.
-/

namespace SingleFlight

variable [Payloads]

/-- The phase of a worker whose run goes on like this. -/
@[simp] def RunStep.phase (n : Nat) : RunStep → WorkerPhase Nat WorkStage
  | .stay stage => .working n (.running stage)
  | .returned => .worked n none .unbinding
  | .panicked message => .worked n (some message) (.failing message)

/-- The pool's events of a run that breaks down on a worker. -/
def RunStep.panics (w n : Nat) : RunStep → List SchedulerEvent
  | .panicked message => [.pool (.panicked w n message)]
  | _ => []

/-- What is left to do for a caller whose own run goes on like this. -/
def RunStep.calls (n : Nat) : RunStep → List Call
  | .stay stage => [.running n stage]
  | .returned => [.taking n]
  | .panicked _ => []

/-- The events of a run that breaks down on its caller. -/
def RunStep.faults (c : Caller) : RunStep → List SchedulerEvent
  | .panicked message => [.panicked c message]
  | _ => []

/-- Whether a callback of the host is called. -/
def Delivery.callsBack : Delivery → Bool
  | .result _ => true
  | .sink _ => true
  | _ => false

namespace Scheduler

/-- What a caller hears of a submission. -/
def submissionAnswer (c : Caller) (pool : String) (id : ActionId) : Option PoolError → List SchedulerEvent
  | none => [.returned c]
  | some .stopped => [.dropped id .poolStopped, .returned c]
  | some error => [.panicked c (submissionFault pool id error)]

/-! ## The rules -/

/-- `Running s c n f stage g next events`: the thread `c` gets on from a stage of the run of the flight `n`,
which turns from `f` to `g`. -/
inductive Running (s : Scheduler) (c : Caller) (n : Nat) (f : Flight) :
    RunStage → Flight → RunStep → List SchedulerEvent → Prop
  | refused : f.phase = .closed → Running s c n f .starting f .returned []
  | exhausted : f.phase ≠ .closed → Flight.attemptLimit ≤ f.attempts + 1 →
      Running s c n f .starting { f with phase := .running } (.panicked Flight.attemptOverflow) []
  | uncopied {message} : f.phase ≠ .closed → f.attempts + 1 < Flight.attemptLimit →
      f.input.copy = .error message → Running s c n f .starting f.begun (.panicked message) []
  | mistyped {input r failure} : f.phase ≠ .closed → f.attempts + 1 < Flight.attemptLimit →
      f.input.copy = .ok input → s.registration? f.action = some r → r.callInput input = .error failure →
      Running s c n f .starting f.begun (.stay (.settling ⟨f.signal.generation⟩ (.error failure))) []
  | called {input r given} : f.phase ≠ .closed → f.attempts + 1 < Flight.attemptLimit →
      f.input.copy = .ok input → s.registration? f.action = some r → r.callInput input = .ok given →
      Running s c n f .starting f.begun (.stay (.invoking given ⟨f.signal.generation⟩))
        [.called c n f.action given ⟨f.signal.generation⟩]
  | dropped {token outcome} : f.phase = .closed → Running s c n f (.settling token outcome) f .returned []
  | retried {token outcome} : f.phase ≠ .closed → f.signal.interrupted = false →
      f.signal.generation ≠ token.started →
      Running s c n f (.settling token outcome) f (.stay .starting)
        [.retried n f.action token.started f.attempts]
  | stored {token outcome} : f.phase ≠ .closed →
      f.signal.interrupted = true ∨ f.signal.generation = token.started →
      Running s c n f (.settling token outcome) { f with output := some outcome, phase := .completed }
        .returned [.completed n f.action token.started outcome.toBool]

/-- `Labour s w name n f act a g b events`: the worker `w` gets on with the flight `n` from its phase `a` to `b`,
and the flight turns from `f` to `g`. -/
inductive Labour (s : Scheduler) (w : Nat) (name : String) (n : Nat) (f : Flight) :
    SchedulerAct → WorkerPhase Nat WorkStage → Flight → WorkerPhase Nat WorkStage → List SchedulerEvent → Prop
  | bound {refusal} : Labour s w name n f (.advance (.worker w) refusal) (.ready n) (f.bind name)
      (.working n (.running .starting)) [.bound n f.action name, .pool (.before w n), .pool (.ran w n)]
  | ran {refusal stage g next events} : Running s (.worker w) n f stage g next events →
      Labour s w name n f (.advance (.worker w) refusal) (.working n (.running stage)) g (next.phase n)
        (events ++ next.panics w n)
  | answered {reply input token r} : s.registration? f.action = some r →
      Labour s w name n f (.reply (.worker w) reply) (.working n (.running (.invoking input token))) f
        (.working n (.running (.settling token (Flight.caught (r.outcome reply))))) []
  | failed {refusal panic message} : Labour s w name n f (.advance (.worker w) refusal)
      (.worked n panic (.failing message)) (f.fail message) (.worked n panic .unbinding) []
  | unbound {refusal panic} : Labour s w name n f (.advance (.worker w) refusal) (.worked n panic .unbinding)
      (f.unbind name) (.worked n panic .returning) []
  | withheld {refusal panic} : s.isClosed = true →
      Labour s w name n f (.advance (.worker w) refusal) (.worked n panic .returning) f (.leaving n)
        [.dropped f.action .schedulerClosed, .pool (.after w n panic)]
  | returned {refusal panic} : s.isClosed = false →
      Labour s w name n f (.advance (.worker w) refusal) (.worked n panic .returning) f
        (.worked n panic .posting) []
  | posted {refusal panic} : Labour s w name n f (.advance (.worker w) refusal) (.worked n panic .posting) f
      (.leaving n) [.posted (.worker w) (.handBack n), .pool (.after w n panic)]

/-- `Turn s act c cs cs' events`: the calls `cs` of the thread `c` turn to `cs'`, and nothing else changes. -/
inductive Turn (s : Scheduler) : SchedulerAct → Caller → List Call → List Call → List SchedulerEvent → Prop
  | requested {id input r cs} : s.isFree .owner = true → s.isSynchronous = false →
      s.registration? id = some r → r.accepts input = true → s.isClosed = false →
      Turn s (.apply .owner id input) .owner cs (.applying id input :: cs) []
  | sent {c id input r cs} : s.isFree c = true → s.isSynchronous = false → c ≠ .owner →
      s.registration? id = some r → r.accepts input = true → s.isClosed = false →
      Turn s (.apply c id input) c cs (.posting id input :: cs) []
  | received {id input cs} : s.isFree .owner = true → s.isSynchronous = false →
      Turn s (.run (.request id input)) .owner cs (.applying id input :: cs) []
  | landed {n cs} : s.isFree .owner = true → s.isSynchronous = false → s.isClosed = false →
      Turn s (.run (.handBack n)) .owner cs (.finishing n :: cs) []
  | posted {c refusal id input rest} : Turn s (.advance c refusal) c (.posting id input :: rest) rest
      [.posted c (.request id input), .returned c]
  | lapsed {c refusal id input rest} : s.isClosed = true →
      Turn s (.advance c refusal) c (.applying id input :: rest) rest
        [.dropped id .schedulerClosed, .returned c]
  | found {c refusal id input n rest} : s.isClosed = false → s.flightOf? id = some n →
      Turn s (.advance c refusal) c (.applying id input :: rest) (.offering n input :: rest) []
  | unknown {c refusal id input rest} : s.isClosed = false → s.flightOf? id = none →
      s.registration? id = none →
      Turn s (.advance c refusal) c (.applying id input :: rest) rest [.panicked c (unknownAction id)]
  | incomparable {c refusal n input f message rest} : s.flights[n]? = some f → f.phase ≠ .closed →
      f.input.compare input = .error message →
      Turn s (.advance c refusal) c (.offering n input :: rest) rest [.panicked c message]
  | coalesced {c refusal n input f rest} : s.flights[n]? = some f → f.phase ≠ .closed →
      f.input.compare input = .ok true →
      Turn s (.advance c refusal) c (.offering n input :: rest) rest [.coalesced n f.action, .returned c]
  | rejected {c refusal n input f rest} : s.flights[n]? = some f → f.phase = .closed →
      Turn s (.advance c refusal) c (.offering n input :: rest) rest
        [.dropped f.action .flightClosed, .returned c]
  | stale {c refusal n f rest} : s.flights[n]? = some f → s.flightOf? f.action ≠ some n →
      Turn s (.advance c refusal) c (.finishing n :: rest) rest [.stale n f.action, .returned c]
  | awaiting {c refusal n f rest} : s.flights[n]? = some f → s.flightOf? f.action = some n →
      f.take.2 = none →
      Turn s (.advance c refusal) c (.finishing n :: rest) rest [.awaiting n f.action, .returned c]
  | missed {c refusal n f rest} : s.flights[n]? = some f → f.take.2 = none →
      Turn s (.advance c refusal) c (.taking n :: rest) rest [.returned c]
  | notified {c refusal n outcome f r rest d} : s.flights[n]? = some f → s.registration? f.action = some r →
      r.deliver outcome = d → d.callsBack = true →
      Turn s (.advance c refusal) c (.delivering n outcome :: rest) (.calling n :: rest)
        [.notified c n r.id r.kind d]
  | settled {c refusal n outcome f r rest d} : s.flights[n]? = some f → s.registration? f.action = some r →
      r.deliver outcome = d → d.callsBack = false →
      Turn s (.advance c refusal) c (.delivering n outcome :: rest) rest
        [.notified c n r.id r.kind d, .returned c]
  | answered {c reply n input token f r rest} : s.flights[n]? = some f → s.registration? f.action = some r →
      Turn s (.reply c reply) c (.running n (.invoking input token) :: rest)
        (.running n (.settling token (Flight.caught (r.outcome reply))) :: rest) []
  | left {c n rest} : Turn s (.leave c none) c (.calling n :: rest) rest [.returned c]
  | panicked {c n message rest} : Turn s (.leave c (some message)) c (.calling n :: rest) rest
      [.panicked c message]
  | closed {c refusal k rest} : s.closing = some k → k.stage = .dropping [] →
      Turn s (.advance c refusal) c (.closing :: rest) rest [.closed k.flights.length, .returned c]

/-- `Move s act s' events`: the step `act` takes `s` to `s'`. -/
inductive Move (s : Scheduler) : SchedulerAct → Scheduler → List SchedulerEvent → Prop
  | unknown {c id input} : s.isFree c = true → s.registration? id = none →
      Move s (.apply c id input) s [.panicked c (unknownAction id)]
  | mismatched {c id input r} : s.isFree c = true → s.registration? id = some r → r.accepts input = false →
      Move s (.apply c id input) s [.panicked c (r.mismatch input)]
  | late {c id input r} : s.isFree c = true → s.registration? id = some r → r.accepts input = true →
      s.isClosed = true → Move s (.apply c id input) s [.dropped id .schedulerClosed, .returned c]
  | ignored {n} : s.isFree .owner = true → s.isClosed = true → Move s (.run (.handBack n)) s [.returned .owner]
  | shutAgain {c} : s.isFree c = true → s.isClosed = true → Move s (.close c) s [.returned c]
  | turned {act c cs events} : Turn s act c (s.callsOf c) cs events → Move s act (s.setCalls c cs) events
  /- Requests. -/
  | launched {c refusal id input r rest} : s.callsOf c = .applying id input :: rest → s.isClosed = false →
      s.flightOf? id = none → s.registration? id = some r →
      Move s (.advance c refusal)
        ({ s with flights := s.flights ++ [Flight.of r input],
                  inFlight := s.inFlight ++ [(id, s.flights.length)] }.setCalls c
          (.submitting s.flights.length :: rest)) [.queued s.flights.length id r.kind input]
  | superseded {c refusal n input f rest} : s.callsOf c = .offering n input :: rest → s.flights[n]? = some f →
      f.phase ≠ .closed → f.phase ≠ .completed → f.input.compare input = .ok false →
      Move s (.advance c refusal) ((s.setFlight n (f.renewed input)).setCalls c rest)
        [.superseded n f.action input (f.signal.generation + 1), .returned c]
  | rearmed {c refusal n input f rest} : s.callsOf c = .offering n input :: rest → s.flights[n]? = some f →
      f.phase = .completed → f.input.compare input = .ok false →
      Move s (.advance c refusal)
        ((s.setFlight n { f.renewed input with output := none, phase := .queued }).setCalls c
          (.submitting n :: rest)) [.rearmed n f.action input (f.signal.generation + 1)]
  | submitted {c refusal n f p q events rest} : s.callsOf c = .submitting n :: rest → s.flights[n]? = some f →
      s.pool = some p → Pool.Admission p n refusal q events →
      Move s (.advance c refusal) ({ s with pool := some q }.setCalls c rest)
        (events.map .pool ++ submissionAnswer c p.name f.action (PoolEvent.refusal? events))
  | collected {c refusal n f outcome rest} : s.callsOf c = .finishing n :: rest → s.flights[n]? = some f →
      s.flightOf? f.action = some n → f.phase = .completed → f.output = some outcome →
      Move s (.advance c refusal)
        ({ s.setFlight n f.landed with inFlight := s.inFlight.filter (·.1 ≠ f.action) }.setCalls c
          (.delivering n outcome :: rest)) [.delivered n f.action f.attempts]
  /- Callers that do all of it themselves. -/
  | inlined {c id input r} : s.isFree c = true → s.isSynchronous = true → s.registration? id = some r →
      r.accepts input = true → s.isClosed = false →
      Move s (.apply c id input) ({ s with flights := s.flights ++ [Flight.of r input] }.setCalls c
        (.running s.flights.length .starting :: s.callsOf c)) []
  | ranInline {c refusal n stage rest f g next events} : s.callsOf c = .running n stage :: rest →
      s.flights[n]? = some f → Running s c n f stage g next events →
      Move s (.advance c refusal) ((s.setFlight n g).setCalls c (next.calls n ++ rest)) (events ++ next.faults c)
  | took {c refusal n f outcome rest} : s.callsOf c = .taking n :: rest → s.flights[n]? = some f →
      f.phase = .completed → f.output = some outcome →
      Move s (.advance c refusal) ((s.setFlight n f.landed).setCalls c (.delivering n outcome :: rest))
        [.delivered n f.action f.attempts]
  /- Workers. -/
  | worked {act w n f g a b p events} : s.callsOf (.worker w) = [] → s.pool = some p → p.phase? w = some a →
      s.flights[n]? = some f → Labour s w (p.workerName w) n f act a g b events →
      Move s act { s.setFlight n g with pool := some (p.setPhase w b) } events
  | warned {w refusal n p} : s.callsOf (.worker w) = [] → s.pool = some p → p.phase? w = some (.recorded n) →
      p.isStopping = true →
      Move s (.advance (.worker w) refusal)
        { s with pool := some (p.setPhase w (.ready n)), flights := s.flights.modify n Flight.interrupt }
        [.pool (.interrupted n)]
  | idled {act w step p q events} : act = .expire w ∨ s.callsOf (.worker w) = [] ∧ (∃ r, act = .advance (.worker w) r) →
      s.pool = some p → p.work w step = some (q, events) → step.isRoutine = true →
      events = [] ∨ events = [.retired w] → Move s act { s with pool := some q } (events.map .pool)
  /- Closing. -/
  | shut {c} : s.isFree c = true → s.isClosed = false →
      Move s (.close c)
        ({ s with isClosed := true, inFlight := [],
                  closing := some { flights := s.inFlight.map Prod.snd,
                                    stage := if s.isSynchronous then .dropping (s.inFlight.map Prod.snd)
                                      else .stopping } }.setCalls c (.closing :: s.callsOf c)) []
  | halted {c refusal rest step p q k events} : s.callsOf c = .closing :: rest → s.closing = some k →
      k.stage = .stopping → s.pool = some p → p.halting step = some (q, events) →
      (∀ n, events ≠ [.interrupted n]) → Move s (.advance c refusal) { s with pool := some q } (events.map .pool)
  | alarmed {c refusal rest step n p q k} : s.callsOf c = .closing :: rest → s.closing = some k →
      k.stage = .stopping → s.pool = some p → p.halting step = some (q, [.interrupted n]) →
      Move s (.advance c refusal) { s with pool := some q, flights := s.flights.modify n Flight.interrupt }
        [.pool (.interrupted n)]
  | abandoned {c rest p q undone} : s.callsOf c = .closing :: rest → s.pool = some p →
      p.stop = some (.awaiting undone) → p.halting .abandon = some (q, [.stopped undone false]) →
      Move s (.abandon c) { s with pool := some q } [.pool (.stopped undone false)]
  | reported {c refusal rest p k undone terminated} : s.callsOf c = .closing :: rest → s.closing = some k →
      k.stage = .stopping → s.pool = some p → p.report? = some (undone, terminated) →
      Move s (.advance c refusal) { s with closing := some { k with stage := .undoing undone } } []
  | undone {c refusal rest p k undone terminated} : s.callsOf c = .closing :: rest → s.closing = some k →
      k.stage = .undoing [] → s.pool = some p → p.report? = some (undone, terminated) →
      Move s (.advance c refusal) { s with closing := some { k with stage := .dropping k.flights } }
        [.poolStopped undone.length terminated]
  | gaveUp {c refusal rest k n more stage} : s.callsOf c = .closing :: rest → s.closing = some k →
      k.stage = .undoing (n :: more) ∧ stage = .undoing more
        ∨ k.stage = .dropping (n :: more) ∧ stage = .dropping more →
      Move s (.advance c refusal)
        { s with closing := some { k with stage }, flights := s.flights.modify n Flight.close } []

/-! ## Every step is one of the moves -/

theorem setFlight_self {s : Scheduler} {n : Nat} {f : Flight} (h : s.flights[n]? = some f) : s.setFlight n f = s := by
  have hset : s.flights.set n f = s.flights := by
    apply List.ext_getElem?
    intro i
    rw [List.getElem?_set]
    split
    · rename_i hi; subst hi
      rw [if_pos (List.getElem?_eq_some_iff.mp h).1, h]
    · rfl
  simp only [setFlight, hset]

theorem runStep_running {s s' : Scheduler} {c : Caller} {n : Nat} {stage : RunStage} {next : RunStep}
    {events : List SchedulerEvent} (h : s.runStep c n stage = some (s', next, events)) :
    ∃ f g, s.flights[n]? = some f ∧ s' = s.setFlight n g ∧ Running s c n f stage g next events := by
  obtain ⟨f, hf, h⟩ := Option.bind_eq_some_iff.mp h
  refine ⟨f, ?_⟩
  cases stage with
  | starting =>
      by_cases hc : f.phase = .closed
      · simp only [Flight.start, hc, ↓reduceIte, Option.some.injEq, Prod.mk.injEq] at h
        obtain ⟨rfl, rfl, rfl⟩ := h
        exact ⟨f, hf, rfl, .refused hc⟩
      · by_cases hl : Flight.attemptLimit ≤ f.attempts + 1
        · simp only [Flight.start, hc, hl, ↓reduceIte, Option.some.injEq, Prod.mk.injEq] at h
          obtain ⟨rfl, rfl, rfl⟩ := h
          exact ⟨_, hf, rfl, .exhausted hc hl⟩
        · have hl' : f.attempts + 1 < Flight.attemptLimit := Nat.lt_of_not_le hl
          cases hp : f.input.copy with
          | error message =>
              simp only [Flight.start, hc, hl, hp, ↓reduceIte, Option.some.injEq, Prod.mk.injEq] at h
              obtain ⟨rfl, rfl, rfl⟩ := h
              exact ⟨_, hf, rfl, .uncopied hc hl' hp⟩
          | ok input =>
              simp only [Flight.start, hc, hl, hp, ↓reduceIte, Option.map_eq_some_iff] at h
              obtain ⟨r, hr, h⟩ := h
              cases hi : r.callInput input with
              | error failure =>
                  simp only [hi, Prod.mk.injEq] at h
                  obtain ⟨rfl, rfl, rfl⟩ := h
                  exact ⟨_, hf, rfl, .mistyped hc hl' hp hr hi⟩
              | ok given =>
                  simp only [hi, Prod.mk.injEq] at h
                  obtain ⟨rfl, rfl, rfl⟩ := h
                  exact ⟨_, hf, rfl, .called hc hl' hp hr hi⟩
  | invoking input token => cases h
  | settling token outcome =>
      by_cases hc : f.phase = .closed
      · simp only [Flight.settle, hc, ↓reduceIte, Option.some.injEq, Prod.mk.injEq] at h
        obtain ⟨rfl, rfl, rfl⟩ := h
        exact ⟨f, hf, rfl, .dropped hc⟩
      · by_cases hs : (!f.signal.interrupted && token.isSuperseded f.signal) = true
        · simp only [Flight.settle, hc, hs, ↓reduceIte, Option.some.injEq, Prod.mk.injEq] at h
          obtain ⟨rfl, rfl, rfl⟩ := h
          simp only [Token.isSuperseded, Bool.and_eq_true, Bool.not_eq_true', decide_eq_true_eq] at hs
          exact ⟨f, hf, rfl, .retried hc hs.1 hs.2⟩
        · simp only [Flight.settle, hc, hs, ↓reduceIte] at h
          cases h
          refine ⟨_, hf, rfl, .stored hc ?_⟩
          cases hi : f.signal.interrupted with
          | true => exact .inl rfl
          | false => exact .inr (by simpa [Token.isSuperseded, hi] using hs)

/-! ### Calls -/

section
variable {s s' : Scheduler} {c : Caller} {rest : List Call} {n : Nat} {refusal : Option IoError}
  {events : List SchedulerEvent}

theorem apply_move {id : ActionId} {input : Payload} (hfree : s.isFree c = true)
    (h : s.apply c id input = (s', events)) : Move s (.apply c id input) s' events := by
  unfold apply at h
  split at h
  · cases h; exact .unknown hfree ‹_›
  · rename_i r hr
    split at h
    · rename_i ha; cases h; exact .mismatched hfree hr (by simpa using ha)
    · rename_i ha
      have ha : r.accepts input = true := by simpa using ha
      split at h
      · rename_i hc; cases h; exact .late hfree hr ha hc
      · rename_i hc
        have hc : s.isClosed = false := by simpa using hc
        split at h
        · rename_i hs; cases h; exact .inlined hfree hs hr ha hc
        · rename_i hs
          have hs : s.isSynchronous = false := by simpa using hs
          split at h
          · rename_i ho; subst ho; cases h; exact .turned (.requested hfree hs hr ha hc)
          · rename_i ho; cases h; exact .turned (.sent hfree hs ho hr ha hc)

theorem run_move {job : Posted} (hfree : s.isFree .owner = true) (hs : s.isSynchronous = false)
    (h : s.run job = (s', events)) : Move s (.run job) s' events := by
  cases job with
  | request id input => cases h; exact .turned (.received hfree hs)
  | handBack n =>
      simp only [run] at h
      split at h
      · rename_i hc; cases h; exact .ignored hfree hc
      · rename_i hc; cases h; exact .turned (.landed hfree hs (by simpa using hc))

theorem lookUp_move {id : ActionId} {input : Payload} (hcalls : s.callsOf c = .applying id input :: rest)
    (h : s.lookUp c rest id input = (s', events)) : Move s (.advance c refusal) s' events := by
  unfold lookUp at h
  split at h
  · rename_i hc; cases h; exact .turned (hcalls ▸ .lapsed hc)
  · rename_i hc
    have hc : s.isClosed = false := by simpa using hc
    split at h
    · rename_i n hf; cases h; exact .turned (hcalls ▸ .found hc hf)
    · rename_i hf
      split at h
      · rename_i hr; cases h; exact .turned (hcalls ▸ .unknown hc hf hr)
      · rename_i r hr; cases h; exact .launched hcalls hc hf hr

theorem offer_move {input : Payload} (hcalls : s.callsOf c = .offering n input :: rest)
    (h : s.offer c rest n input = some (s', events)) : Move s (.advance c refusal) s' events := by
  obtain ⟨f, hf, h⟩ := Option.map_eq_some_iff.mp h
  by_cases hc : f.phase = .closed
  · simp only [Flight.offer, hc, ↓reduceIte, setFlight_self hf] at h
    cases h; exact .turned (hcalls ▸ .rejected hf hc)
  · cases hp : f.input.compare input with
    | error message =>
        simp only [Flight.offer, hc, hp, ↓reduceIte] at h
        cases h; exact .turned (hcalls ▸ .incomparable hf hc hp)
    | ok equal =>
        cases equal with
        | true =>
            simp only [Flight.offer, hc, hp, ↓reduceIte, setFlight_self hf] at h
            cases h; exact .turned (hcalls ▸ .coalesced hf hc hp)
        | false =>
            by_cases hd : f.phase = .completed
            · simp only [Flight.offer, hp, hd, reduceCtorEq, ↓reduceIte] at h
              cases h; exact .rearmed hcalls hf hd hp
            · simp only [Flight.offer, hc, hp, hd, ↓reduceIte] at h
              cases h; exact .superseded hcalls hf hc hd hp

theorem heed_of_quiet {events : List (PoolEvent Nat)} (h : ∀ n, .interrupted n ∉ events) : s.heed events = s := by
  induction events with
  | nil => rfl
  | cons e events ih =>
      have ih := ih fun n hn => h n (List.mem_cons_of_mem _ hn)
      cases e with
      | interrupted n => exact absurd List.mem_cons_self (h n)
      | _ => exact ih

theorem submit_move (hcalls : s.callsOf c = .submitting n :: rest)
    (h : s.submit c rest n refusal = some (s', events)) : Move s (.advance c refusal) s' events := by
  unfold submit at h
  split at h
  · rename_i p f hp hf
    have ha := Pool.submit_admission p n refusal
    generalize p.submit n refusal = admitted at h ha
    obtain ⟨q, events⟩ := admitted
    have hquiet := ha.quiet
    have hmove : Move s (.advance c refusal) _ _ := .submitted hcalls hf hp ha
    simp only [withPool, heed_of_quiet hquiet] at h
    split at h
    · rename_i hr; cases h; rw [hr] at hmove; exact hmove
    · rename_i hr; cases h; rw [hr] at hmove; rw [List.append_assoc]; exact hmove
    · rename_i error hne hr
      cases h
      rw [hr] at hmove
      cases error with
      | stopped => exact absurd rfl hne
      | _ => exact hmove
  · cases h

theorem collect_move (hcalls : s.callsOf c = .finishing n :: rest)
    (h : s.collect c rest n = some (s', events)) : Move s (.advance c refusal) s' events := by
  obtain ⟨f, hf, h⟩ := Option.map_eq_some_iff.mp h
  split at h
  · rename_i hs; cases h; exact .turned (hcalls ▸ .stale hf hs)
  · rename_i hs
    have hs : s.flightOf? f.action = some n := by simpa using hs
    split at h
    · rename_i ht; cases h; exact .turned (hcalls ▸ .awaiting hf hs (congrArg Prod.snd ht))
    · rename_i g outcome ht
      unfold Flight.take at ht
      split at ht
      · rename_i hd
        simp only [Prod.mk.injEq] at ht
        obtain ⟨rfl, ho⟩ := ht
        cases h; exact .collected hcalls hf hs hd ho
      · cases ht

/-! ### Deliveries and runs of a caller -/

theorem takeOutcome_move (hcalls : s.callsOf c = .taking n :: rest)
    (h : s.takeOutcome c rest n = some (s', events)) : Move s (.advance c refusal) s' events := by
  obtain ⟨f, hf, h⟩ := Option.map_eq_some_iff.mp h
  split at h
  · rename_i ht; cases h; exact .turned (hcalls ▸ .missed hf (congrArg Prod.snd ht))
  · rename_i g outcome ht
    unfold Flight.take at ht
    split at ht
    · rename_i hd
      simp only [Prod.mk.injEq] at ht
      obtain ⟨rfl, ho⟩ := ht
      cases h; exact .took hcalls hf hd ho
    · cases ht

theorem deliver_move {outcome : Outcome} (hcalls : s.callsOf c = .delivering n outcome :: rest)
    (h : s.deliver c rest n outcome = some (s', events)) : Move s (.advance c refusal) s' events := by
  obtain ⟨f, hf, h⟩ := Option.bind_eq_some_iff.mp h
  obtain ⟨r, hr, h⟩ := Option.map_eq_some_iff.mp h
  split at h
  · rename_i hd; cases h; exact .turned (hcalls ▸ .notified hf hr hd rfl)
  · rename_i hd; cases h; exact .turned (hcalls ▸ .notified hf hr hd rfl)
  · rename_i hd; cases h; exact .turned (hcalls ▸ .settled hf hr hd rfl)
  · rename_i hd; cases h; exact .turned (hcalls ▸ .settled hf hr hd rfl)

theorem runInline_move {stage : RunStage} (hcalls : s.callsOf c = .running n stage :: rest)
    (h : s.runInline c rest n stage = some (s', events)) : Move s (.advance c refusal) s' events := by
  obtain ⟨⟨u, next, inner⟩, hrun, h⟩ := Option.map_eq_some_iff.mp h
  obtain ⟨f, g, hf, rfl, hrunning⟩ := runStep_running hrun
  have hmove : Move s (.advance c refusal) _ _ := .ranInline hcalls hf hrunning
  cases next with
  | stay stage => cases h; simpa [RunStep.calls, RunStep.faults] using hmove
  | returned => cases h; simpa [RunStep.calls, RunStep.faults] using hmove
  | panicked message => cases h; simpa [RunStep.calls, RunStep.faults] using hmove

theorem leave_move {panic : Option String} (h : s.leave c panic = some (s', events)) :
    Move s (.leave c panic) s' events := by
  unfold leave at h
  split at h
  · rename_i hcalls; cases h; exact .turned (hcalls ▸ .left)
  · rename_i hcalls; cases h; exact .turned (hcalls ▸ .panicked)
  · cases h

/-! ### Closing -/

theorem close_move (hfree : s.isFree c = true) (h : s.close c = (s', events)) :
    Move s (.close c) s' events := by
  unfold close at h
  split at h
  · rename_i hc; cases h; exact .shutAgain hfree hc
  · rename_i hc; cases h; exact .shut hfree (by simpa using hc)

theorem stopStep_move {step : StopAct} {k : Closing} (hcalls : s.callsOf c = .closing :: rest)
    (hk : s.closing = some k) (hstage : k.stage = .stopping)
    (h : s.stopStep step = some (s', events)) : Move s (.advance c refusal) s' events := by
  obtain ⟨p, hp, h⟩ := Option.bind_eq_some_iff.mp h
  obtain ⟨⟨q, stops⟩, hq, h⟩ := Option.map_eq_some_iff.mp h
  rcases Pool.halting_events hq with ⟨n, rfl⟩ | rfl | ⟨undone, terminated, rfl⟩ | ⟨terminated, rfl⟩
  · cases h; exact .alarmed hcalls hk hstage hp hq
  · cases h; exact .halted hcalls hk hstage hp hq (by simp)
  · cases h; exact .halted hcalls hk hstage hp hq (by simp)
  · cases h; exact .halted hcalls hk hstage hp hq (by simp)

theorem advanceClosing_move (hcalls : s.callsOf c = .closing :: rest)
    (h : s.advanceClosing c rest = some (s', events)) : Move s (.advance c refusal) s' events := by
  obtain ⟨k, hk, h⟩ := Option.bind_eq_some_iff.mp h
  split at h
  · rename_i hstage
    obtain ⟨p, hp, h⟩ := Option.bind_eq_some_iff.mp h
    split at h
    · rename_i undone terminated hr; cases h; exact .reported hcalls hk hstage hp hr
    · exact stopStep_move hcalls hk hstage h
  · rename_i n more hstage
    cases h; exact .gaveUp hcalls hk (.inl ⟨hstage, rfl⟩)
  · rename_i hstage
    obtain ⟨⟨undone, terminated⟩, hr, h⟩ := Option.map_eq_some_iff.mp h
    obtain ⟨p, hp, hr⟩ := Option.bind_eq_some_iff.mp hr
    cases h; exact .undone hcalls hk hstage hp hr
  · rename_i n more hstage
    cases h; exact .gaveUp hcalls hk (.inr ⟨hstage, rfl⟩)
  · rename_i hstage
    cases h; exact .turned (hcalls ▸ .closed hk hstage)

theorem abandon_move (hwait : s.isAwaiting c = true) (h : s.stopStep .abandon = some (s', events)) :
    Move s (.abandon c) s' events := by
  unfold isAwaiting at hwait
  split at hwait
  · rename_i rest undone hcalls hstop
    obtain ⟨p, hp, hstop⟩ := Option.bind_eq_some_iff.mp hstop
    obtain ⟨p', hp', h⟩ := Option.bind_eq_some_iff.mp h
    cases hp.symm.trans hp'
    have hq : p.halting .abandon = some ({ p with stop := some (.reported undone false) }, [.stopped undone false]) := by
      simp [Pool.halting, hstop]
    rw [hq] at h
    cases h; exact .abandoned hcalls hp hstop hq
  · cases hwait

end

/-! ### Workers -/

section
variable {s s' : Scheduler} {p : Pool Nat WorkStage} {w n : Nat} {refusal : Option IoError} {events : List SchedulerEvent}

theorem workerStep_eq {act : WorkerAct WorkStage} {q : Pool Nat WorkStage} {pooled : List (PoolEvent Nat)}
    (hp : s.pool = some p) (hq : p.work w act = some (q, pooled)) (hquiet : ∀ m, .interrupted m ∉ pooled) :
    s.workerStep w act events = some ({ s with pool := some q }, events ++ pooled.map .pool) := by
  simp only [workerStep, hp, Option.bind_some, hq, Option.map_some, withPool, heed_of_quiet hquiet]

theorem enter_move (hcalls : s.callsOf (.worker w) = []) (hp : s.pool = some p) (hw : p.phase? w = some (.ready n))
    (h : s.enter w (p.workerName w) n = some (s', events)) : Move s (.advance (.worker w) refusal) s' events := by
  obtain ⟨f, hf, h⟩ := Option.bind_eq_some_iff.mp h
  have hq : p.work w (.enter (.running .starting) none)
      = some (p.setPhase w (.working n (.running .starting)), [.before w n, .ran w n]) := by
    simp [Pool.work, hw]
  rw [workerStep_eq (s := s.setFlight n (f.bind (p.workerName w))) hp hq (by simp)] at h
  cases h; exact .worked hcalls hp hw hf .bound

theorem runOnWorker_move {stage : RunStage} (hcalls : s.callsOf (.worker w) = []) (hp : s.pool = some p)
    (hw : p.phase? w = some (.working n (.running stage))) (h : s.runOnWorker w n stage = some (s', events)) :
    Move s (.advance (.worker w) refusal) s' events := by
  obtain ⟨⟨u, next, inner⟩, hrun, h⟩ := Option.bind_eq_some_iff.mp h
  obtain ⟨f, g, hf, rfl, hrunning⟩ := runStep_running hrun
  have hmove : Move s (.advance (.worker w) refusal) _ _ := .worked hcalls hp hw hf (.ran hrunning)
  cases next with
  | stay stage =>
      have hq : p.work w (.advance (.running stage)) = some (p.setPhase w (.working n (.running stage)), []) := by
        simp [Pool.work, hw]
      simp only [workerStep_eq (s := s.setFlight n g) hp hq (by simp)] at h
      cases h; exact hmove
  | returned =>
      have hq : p.work w (.finish .unbinding none) = some (p.setPhase w (.worked n none .unbinding), []) := by
        simp [Pool.work, hw, Pool.panicEvents]
      simp only [workerStep_eq (s := s.setFlight n g) hp hq (by simp)] at h
      cases h; exact hmove
  | panicked message =>
      have hq : p.work w (.finish (.failing message) (some message))
          = some (p.setPhase w (.worked n (some message) (.failing message)), [.panicked w n message]) := by
        simp [Pool.work, hw, Pool.panicEvents]
      simp only [workerStep_eq (s := s.setFlight n g) hp hq (by simp)] at h
      cases h; exact hmove

theorem handBack_move {panic : Option String} {stage : WorkStage} (hcalls : s.callsOf (.worker w) = [])
    (hp : s.pool = some p) (hw : p.phase? w = some (.worked n panic stage))
    (h : s.handBack w (p.workerName w) n stage = some (s', events)) : Move s (.advance (.worker w) refusal) s' events := by
  obtain ⟨f, hf, h⟩ := Option.bind_eq_some_iff.mp h
  have hadvance : ∀ next, p.work w (.advance next) = some (p.setPhase w (.worked n panic next), []) := by
    intro next; simp [Pool.work, hw]
  have hcomplete : p.work w (.complete none) = some (p.setPhase w (.leaving n), [.after w n panic]) := by
    simp [Pool.work, hw]
  have hmove {g b} {events : List SchedulerEvent}
      (hl : Labour s w (p.workerName w) n f (.advance (.worker w) refusal) (.worked n panic stage) g b events) :=
    Move.worked hcalls hp hw hf hl
  cases stage with
  | running stage => cases h
  | failing message =>
      simp only [workerStep_eq (s := s.setFlight n (f.fail message)) hp (hadvance .unbinding) (by simp)] at h
      cases h; exact hmove .failed
  | unbinding =>
      simp only [workerStep_eq (s := s.setFlight n (f.unbind (p.workerName w))) hp (hadvance .returning) (by simp)] at h
      cases h; exact hmove .unbound
  | returning =>
      simp only [workerStep_eq hp hcomplete (by simp), workerStep_eq hp (hadvance .posting) (by simp)] at h
      split at h
      · rename_i hc
        have := hmove (.withheld hc)
        rw [setFlight_self hf] at this
        cases h; exact this
      · rename_i hc
        have := hmove (.returned (by simpa using hc))
        rw [setFlight_self hf] at this
        cases h; exact this
  | posting =>
      have := hmove .posted
      rw [setFlight_self hf] at this
      simp only [workerStep_eq hp hcomplete (by simp)] at h
      cases h; exact this

/-- Outside of tasks and of hooks a worker interrupts its task or moves on by itself. -/
theorem routine_move {act : SchedulerAct} {step : WorkerAct WorkStage}
    (hact : act = .expire w ∨ s.callsOf (.worker w) = [] ∧ ∃ r, act = .advance (.worker w) r)
    (hstep : step.isRoutine = true) (hheed : act = .expire w → step ≠ .heed)
    (h : s.workerStep w step [] = some (s', events)) : Move s act s' events := by
  obtain ⟨p, hp, h⟩ := Option.bind_eq_some_iff.mp h
  obtain ⟨⟨q, pooled⟩, hq, h⟩ := Option.map_eq_some_iff.mp h
  rcases Pool.work_routine_events hstep hq with hidle | ⟨n, hw, hstop, rfl⟩
  · have hquiet : ∀ m, .interrupted m ∉ pooled := by rcases hidle with rfl | rfl <;> simp
    simp only [withPool, heed_of_quiet hquiet, List.nil_append] at h
    cases h; exact .idled hact hp hq hstep hidle
  · have hq' : step = .heed ∧ q = p.setPhase w (.ready n) := by
      simp only [Pool.work, hw] at hq
      split at hq <;> simp_all
    obtain ⟨rfl, rfl⟩ := hq'
    rcases hact with hact | ⟨hcalls, refusal, rfl⟩
    · exact absurd rfl (hheed hact)
    · cases h; exact .warned hcalls hp hw hstop

theorem advanceWorker_move (hcalls : s.callsOf (.worker w) = []) (h : s.advanceWorker w = some (s', events)) :
    Move s (.advance (.worker w) refusal) s' events := by
  obtain ⟨p, hp, h⟩ := Option.bind_eq_some_iff.mp h
  split at h
  · exact enter_move hcalls hp ‹_› h
  · exact runOnWorker_move hcalls hp ‹_› h
  · exact handBack_move hcalls hp ‹_› h
  · obtain ⟨step, hstep, h⟩ := Option.bind_eq_some_iff.mp h
    refine routine_move (.inr ⟨hcalls, refusal, rfl⟩) ?_ (by simp) h
    unfold Pool.nextRoutine? at hstep
    split at hstep
    · split at hstep <;> cases hstep; rfl
    · unfold Pool.routine? at hstep
      split at hstep <;> cases hstep <;> rfl
    · cases hstep

end

/-! ### All steps -/

section
variable {s s' : Scheduler} {c : Caller} {events : List SchedulerEvent}

theorem reply_move {answer : Reply} (h : s.reply c answer = some (s', events)) :
    Move s (.reply c answer) s' events := by
  unfold reply at h
  split at h
  · rename_i n input token rest hcalls
    obtain ⟨stage, hstage, h⟩ := Option.map_eq_some_iff.mp h
    obtain ⟨f, hf, hstage⟩ := Option.bind_eq_some_iff.mp hstage
    obtain ⟨r, hr, rfl⟩ := Option.map_eq_some_iff.mp hstage
    cases h; exact .turned (hcalls ▸ .answered hf hr)
  · rename_i w hcalls
    split at h
    · rename_i n input token hw
      obtain ⟨p, hp, hw⟩ := Option.bind_eq_some_iff.mp hw
      obtain ⟨stage, hstage, h⟩ := Option.bind_eq_some_iff.mp h
      obtain ⟨f, hf, hstage⟩ := Option.bind_eq_some_iff.mp hstage
      obtain ⟨r, hr, rfl⟩ := Option.map_eq_some_iff.mp hstage
      have hq : ∀ next, p.work w (.advance next) = some (p.setPhase w (.working n next), []) := by
        intro next; simp [Pool.work, hw]
      have hmove : Move s (.reply (.worker w) answer) _ _ := .worked hcalls hp hw hf (.answered hr)
      rw [setFlight_self hf] at hmove
      rw [workerStep_eq hp (hq _) (by simp)] at h
      cases h; exact hmove
    · cases h
  · cases h

theorem advance_move {refusal : Option IoError} (h : s.advance c refusal = some (s', events)) :
    Move s (.advance c refusal) s' events := by
  unfold advance at h
  split at h
  · rename_i call rest hcalls
    cases call with
    | posting id input => cases h; exact .turned (hcalls ▸ .posted)
    | applying id input =>
        simp only [advanceCall, Option.some.injEq] at h
        exact lookUp_move hcalls h
    | offering n input => exact offer_move hcalls h
    | submitting n => exact submit_move hcalls h
    | finishing n => exact collect_move hcalls h
    | running n stage => exact runInline_move hcalls h
    | taking n => exact takeOutcome_move hcalls h
    | delivering n outcome => exact deliver_move hcalls h
    | calling n => cases h
    | closing => exact advanceClosing_move hcalls h
  · exact advanceWorker_move ‹_› h
  · cases h

/-- Every step is one of the moves. -/
theorem step_move {act : SchedulerAct} (h : s.step act = some (s', events)) : Move s act s' events := by
  cases act with
  | apply c id input =>
      simp only [step] at h
      split at h
      · simp only [Option.some.injEq] at h; exact apply_move ‹_› h
      · cases h
  | close c =>
      simp only [step] at h
      split at h
      · simp only [Option.some.injEq] at h; exact close_move ‹_› h
      · cases h
  | run job =>
      simp only [step] at h
      split at h
      · rename_i hfree
        simp only [Bool.and_eq_true, Bool.not_eq_true'] at hfree
        simp only [Option.some.injEq] at h; exact run_move hfree.1 hfree.2 h
      · cases h
  | advance c refusal => exact advance_move h
  | reply c answer => exact reply_move h
  | leave c panic => exact leave_move h
  | expire w => exact routine_move (.inl rfl) rfl (by simp) h
  | abandon c =>
      simp only [step] at h
      split at h
      · exact abandon_move ‹_› h
      · cases h

end

end Scheduler

end SingleFlight
