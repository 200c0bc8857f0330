import SingleFlight.Proofs.Scheduler.Course
import SingleFlight.Proofs.System

/-!
# Deliveries in a history

What the history of a scheduler with a pool says of its flights: the inputs that each of them accepted, and that
each is delivered once at most, after its last input and before its action gets another flight.
-/

namespace SingleFlight

open Scheduler

variable [Payloads]

namespace System

variable {sys sys' : System} {act : SystemAct} {a : SchedulerAct} {history : List Moment} {moment : Moment}
  {events : List SchedulerEvent} {n m : Nat} {id : ActionId}

/-! ## Reading histories -/

/-- The newest input that the flight accepted. -/
def newest (n : Nat) : List Moment → Option Payload
  | [] => none
  | moment :: history => (inputs n moment.events).getLast?.or (newest n history)

/-- The number of inputs that the flight accepted. -/
def inputCount (n : Nat) : List Moment → Nat
  | [] => 0
  | moment :: history => inputCount n history + (inputs n moment.events).length

/-- How often the outcome of the flight was taken for its delivery. -/
def deliveryCount (n : Nat) : List Moment → Nat
  | [] => 0
  | moment :: history => deliveryCount n history + deliveries n moment.events

/-- How often the outcome of the flight went to its callback. -/
def notificationCount (n : Nat) : List Moment → Nat
  | [] => 0
  | moment :: history => notificationCount n history + notifications n moment.events

theorem count_append {count : List Moment → Nat} (weight : Moment → Nat) (hnil : count [] = 0)
    (hcons : ∀ moment history, count (moment :: history) = count history + weight moment) (later history : List Moment) :
    count (later ++ history) = count history + count later := by
  induction later with
  | nil => rw [List.nil_append, hnil, Nat.add_zero]
  | cons moment later ih => rw [List.cons_append, hcons, hcons, ih, Nat.add_assoc]

theorem inputCount_append (n : Nat) (later history : List Moment) :
    inputCount n (later ++ history) = inputCount n history + inputCount n later :=
  count_append _ rfl (fun _ _ => rfl) later history

theorem deliveryCount_append (n : Nat) (later history : List Moment) :
    deliveryCount n (later ++ history) = deliveryCount n history + deliveryCount n later :=
  count_append _ rfl (fun _ _ => rfl) later history

theorem notificationCount_append (n : Nat) (later history : List Moment) :
    notificationCount n (later ++ history) = notificationCount n history + notificationCount n later :=
  count_append _ rfl (fun _ _ => rfl) later history

/-- The flight was started for the action. -/
def WasStarted (n : Nat) (id : ActionId) (history : List Moment) : Prop :=
  ∃ moment ∈ history, ∃ kind input, .queued n id kind input ∈ moment.events

/-! ## Deliveries -/

/-- What a history says of the deliveries. -/
structure Delivering (history : List Moment) (sys : System) : Prop where
  started : ∀ n id, WasStarted n id history → ∃ f, sys.scheduler.flights[n]? = some f ∧ f.action = id
  pending : ∀ n, (sys.scheduler.standing n).phase ≠ some .closed → deliveryCount n history = 0
  once : ∀ n, deliveryCount n history ≤ 1
  landed : sys.scheduler.isClosed = false → ∀ n, (sys.scheduler.standing n).phase = some .closed →
    deliveryCount n history = 1
  told : ∀ n, notificationCount n history + (sys.scheduler.callsOf .owner).countP (Call.delivers n)
    = deliveryCount n history

theorem Begins.delivering (hb : sys.Begins) : Delivering [] sys := by
  have hnone (n : Nat) : (sys.scheduler.standing n).phase = none := by simp [standing, hb.flights]
  refine ⟨?_, fun _ _ => rfl, fun _ => Nat.zero_le _, fun _ n hc => ?_, fun n => ?_⟩
  · rintro n id ⟨moment, hm, -⟩; cases hm
  · rw [hnone] at hc; cases hc
  · simp [Scheduler.callsOf, hb.calls, notificationCount, deliveryCount]

/-- A flight of the action that was started before is delivered when another one is started. -/
theorem Delivering.separates {kind : ActionKind} {input : Payload} (h : Delivering history sys)
    (hs : sys.scheduler.Sane) (hm : Move sys.scheduler a sys'.scheduler events)
    (he : .queued m id kind input ∈ events) (hn : WasStarted n id history) : deliveryCount n history = 1 := by
  obtain ⟨f, hf, rfl⟩ := h.started n id hn
  cases hm.news he rfl with
  | queued _ hopen hnone _ =>
      refine h.landed hopen n ?_
      by_cases hc : f.phase = .closed
      · simp [standing, hf, hc]
      · exact absurd (hs.charted.complete hopen n f hf hc) (not_mem_of_flightOf? hnone)

theorem Delivering.accepts (h : Delivering history sys) (hs : sys.scheduler.Sane)
    (hm : Move sys.scheduler a sys'.scheduler events) (he : inputs n events ≠ []) : deliveryCount n history = 0 := by
  refine h.pending n fun hclosed => ?_
  obtain ⟨f, hf, hc⟩ : ∃ f, sys.scheduler.flights[n]? = some f ∧ f.phase = .closed := by
    simpa [standing, Option.map_eq_some_iff] using hclosed
  have hcourse := hm.course hs n
  rw [hf] at hcourse
  generalize sys'.scheduler.flights[n]? = after at hcourse
  cases hcourse with
  | renewed _ hne => exact hne hc
  | kept hin | stored hin | failed hin | stopped hin => exact he hin

theorem Delivering.step_move (h : Delivering history sys) (hs : sys.scheduler.Sane)
    (hm : Move sys.scheduler a sys'.scheduler events) :
    Delivering ({ act := .thread a, events } :: history) sys' := by
  have hland (n : Nat) := hm.deliveries hs n
  have hcount (n : Nat) : deliveryCount n ({ act := .thread a, events } :: history)
      = deliveryCount n history + deliveries n events := rfl
  refine ⟨?_, fun n hp => ?_, fun n => ?_, fun hopen n hc => ?_, fun n => ?_⟩
  · rintro n id ⟨moment, hmem, hq⟩
    rcases List.mem_cons.mp hmem with rfl | hmem
    · obtain ⟨kind, input, hq⟩ := hq
      exact hm.queued hs hq
    · obtain ⟨f, hf, ha⟩ := h.started n id ⟨moment, hmem, hq⟩
      obtain ⟨g, hg, hp⟩ := hm.persists hf
      exact ⟨g, hg, hp.action.trans ha⟩
  · rw [hcount]
    rcases hland n with h0 | ⟨-, -, hc⟩
    · rw [h0, h.pending n fun hc => hp (hm.stays_closed hc)]
    · exact absurd hc hp
  · rw [hcount]
    rcases hland n with h0 | ⟨h1, hd, -⟩
    · rw [h0]; exact h.once n
    · exact Nat.le_of_eq (by rw [h1, h.pending n (by rw [hd]; simp)])
  · rw [hcount]
    by_cases hb : (sys.scheduler.standing n).phase = some .closed
    · rw [h.landed (hm.keeps.opened hopen) n hb]
      rcases hland n with h0 | ⟨-, hd, -⟩
      · rw [h0]
      · rw [hb] at hd; cases hd
    · rw [hm.closes hs hopen hb hc, h.pending n hb]
  · have hn := hm.notifications hs n
    have ht := h.told n
    rw [hcount]
    simp only [notificationCount]
    omega

theorem Delivering.step (h : Delivering history sys) (hs : sys.scheduler.Sane)
    (hstep : sys.step act = some (sys', events)) : Delivering ({ act, events } :: history) sys' := by
  rcases step_cases hstep with ⟨rfl, rfl, rfl⟩ | ⟨a, loop, rfl, -, hm, -⟩
  · refine ⟨?_, h.pending, h.once, h.landed, h.told⟩
    rintro n id ⟨moment, hmem, hq⟩
    rcases List.mem_cons.mp hmem with rfl | hmem
    · obtain ⟨kind, input, hq⟩ := hq; cases hq
    · exact h.started n id ⟨moment, hmem, hq⟩
  · exact h.step_move hs hm

theorem Delivering.taken_closed {o : Outcome} (h : Delivering history sys)
    (hx : .delivering n o ∈ sys.scheduler.callsOf .owner) :
    ∃ f, sys.scheduler.flights[n]? = some f ∧ f.phase = .closed := by
  have hpos : 0 < (sys.scheduler.callsOf .owner).countP (Call.delivers n) :=
    List.countP_pos_iff.mpr ⟨_, hx, by simp [Call.delivers]⟩
  have htold := h.told n
  have hphase : (sys.scheduler.standing n).phase = some .closed := by
    cases hp : (sys.scheduler.standing n).phase with
    | some phase =>
        by_cases e : phase = .closed
        · rw [e]
        · have := h.pending n (by simp [hp, e])
          omega
    | none =>
        have := h.pending n (by simp [hp])
        omega
  simpa [standing, Option.map_eq_some_iff] using hphase

theorem Reachable.delivering (h : Reachable history sys) (hpool : sys.scheduler.isSynchronous = false) :
    Delivering history sys :=
  h.sane_invariant (fun _ hb => hb.delivering) (fun _ hs ih => ih.step hs) hpool

/-! ## Inputs and signals -/

theorem Reachable.newest_eq (h : Reachable history sys) (hpool : sys.scheduler.isSynchronous = false) (n : Nat) :
    newest n history = (sys.scheduler.flights[n]?).map Flight.input := by
  refine h.sane_invariant (P := fun history sys => newest n history = (sys.scheduler.flights[n]?).map Flight.input)
    ?_ ?_ hpool
  · intro sys hb; simp [hb.flights]; rfl
  · intro history sys act sys' events _ hsane ih hs
    rcases step_cases hs with ⟨rfl, rfl, rfl⟩ | ⟨a, loop, rfl, -, hm, -⟩
    · exact ih
    · rw [(hm.course hsane n).newest, ← ih]; rfl

/-- As long as the scheduler is open, nothing is interrupted. -/
theorem Reachable.calm (h : Reachable history sys) (hpool : sys.scheduler.isSynchronous = false)
    (hopen : sys.scheduler.isClosed = false) {f : Flight} (hf : sys.scheduler.flights[n]? = some f) :
    f.signal.interrupted = false := by
  refine h.sane_invariant (P := fun _ sys => sys.scheduler.isClosed = false → ∀ f, sys.scheduler.flights[n]? = some f →
    f.signal.interrupted = false) ?_ ?_ hpool hopen f hf
  · intro sys hb _ f hf; simp [hb.flights] at hf
  · intro history sys act sys' events _ hsane ih hs hopen g hg
    rcases step_cases hs with ⟨rfl, rfl, rfl⟩ | ⟨a, loop, rfl, -, hm, -⟩
    · exact ih hopen g hg
    · have hc := hm.course hsane n
      rw [hg] at hc
      exact hc.calm (hm.keeps.opened hopen) (ih (hm.keeps.opened hopen))

end System

end SingleFlight
