import Mathlib.Data.List.Perm.Subperm
import SingleFlight.Proofs.Pool.Runs
import SingleFlight.Proofs.Scheduler.Refusals
import SingleFlight.Proofs.Sources

/-!
# Room in the queue

A pool queues no two flights of one action, and none of the action whose flight is just being submitted. So a queue
with a place for every registered action is never full when a flight is submitted.
-/

namespace SingleFlight

section

variable [Payloads]

namespace Scheduler

variable {s s' : Scheduler} {p q : Pool Nat WorkStage} {act : SchedulerAct} {n m : Nat} {rest : List Call}
  {events : List SchedulerEvent} {l : List Nat}

/-- The action of a flight. -/
def actionOf? (s : Scheduler) (n : Nat) : Option ActionId := (s.flights[n]?).map Flight.action

/-! ## Flights that wait -/

/-- The flights of the list wait to be run. -/
def Waiting (s : Scheduler) (l : List Nat) : Prop := ∀ n, l.count n ≤ (s.standing n).waiting

theorem waiting_queue (hp : s.pool = some p) : s.Waiting p.queue := by
  intro n
  have : (s.standing n).waiting = (s.callsOf .owner).countP (Call.submits n) + p.pending n := by simp [standing, hp]
  rw [this, Pool.pending]
  omega

theorem waiting_submitting (hp : s.pool = some p) (hcs : s.callsOf .owner = .submitting m :: rest) :
    s.Waiting (m :: p.queue) := by
  intro n
  have : (s.standing n).waiting = (s.callsOf .owner).countP (Call.submits n) + p.pending n := by simp [standing, hp]
  rw [this, Pool.pending, hcs, List.countP_cons, List.count_cons]
  by_cases e : m = n <;> simp [e] <;> omega

theorem Waiting.busy (h : s.Waiting l) (hn : n ∈ l) : (s.standing n).Busy := by
  have := List.count_pos_iff.mpr hn
  have := h n
  exact .inr (by omega)

theorem Waiting.started (h : s.Waiting l) (hs : s.Sane) (hn : n ∈ l) : ∃ f, s.flights[n]? = some f :=
  hs.busy_some (h.busy hn)

theorem Waiting.distinct (h : s.Waiting l) (hs : s.Sane) : (l.map s.actionOf?).Nodup := by
  have honce : l.Nodup := List.nodup_iff_count.mpr fun n => by
    have := h n
    have := (hs.sound n).le_one
    omega
  refine List.pairwise_map.mpr (honce.imp_of_mem fun {n m} hn hm hne heq => hne ?_)
  obtain ⟨f, hf⟩ := h.started hs hn
  obtain ⟨g, hg⟩ := h.started hs hm
  have ha : f.action = g.action := by simpa [actionOf?, hf, hg] using heq
  exact hs.exclusive n m f g hf hg ha (h.busy hn) (h.busy hm)

/-- No more flights wait than there are actions. -/
theorem Waiting.length_le (h : s.Waiting l) (hs : s.Sane)
    (hreg : ∀ (n : Nat) (f : Flight), s.flights[n]? = some f → f.action.index < s.registrations.length) :
    l.length ≤ s.registrations.length := by
  have hsub : l.map s.actionOf? ⊆ (List.range s.registrations.length).map fun i => some ⟨i⟩ := by
    intro a ha
    obtain ⟨n, hn, rfl⟩ := List.mem_map.mp ha
    obtain ⟨f, hf⟩ := h.started hs hn
    exact List.mem_map.mpr ⟨f.action.index, List.mem_range.mpr (hreg n f hf), by simp [actionOf?, hf]⟩
  simpa using (List.subperm_of_subset (h.distinct hs) hsub).length_le

/-! ## Capacities -/

theorem Move.pool_fixed (hm : Move s act s' events) (hp : s.pool = some p) :
    ∃ q, s'.pool = some q ∧ Pool.Fixed p q := by
  have hkept : Pool.Fixed p p := ⟨rfl, rfl⟩
  cases hm with
  | submitted _ _ hp' ha => cases hp.symm.trans hp'; exact ⟨_, rfl, ha.fixed⟩
  | worked _ hp' | warned _ hp' => cases hp.symm.trans hp'; exact ⟨_, rfl, rfl, rfl⟩
  | @idled _ _ _ _ q _ _ hp' hw =>
      cases hp.symm.trans hp'
      exact ⟨q, rfl, (Pool.work_move hw).fixed⟩
  | @halted _ _ _ _ _ q _ _ _ _ _ hp' hh | @alarmed _ _ _ _ _ _ q _ _ _ _ hp' hh =>
      cases hp.symm.trans hp'
      exact ⟨q, rfl, (Pool.halting_move hh).fixed⟩
  | @abandoned _ _ _ q _ _ hp' _ hh =>
      cases hp.symm.trans hp'
      exact ⟨q, rfl, (Pool.halting_move hh).fixed⟩
  | _ => exact ⟨p, hp, hkept⟩

theorem Move.pool_before (hm : Move s act s' events) (hq : s'.pool = some q) :
    ∃ p, s.pool = some p ∧ Pool.Fixed p q := by
  have hsync : s.isSynchronous = false := hm.keeps.synchronous ▸ (by simp [isSynchronous, hq])
  obtain ⟨p, hp⟩ := exists_pool hsync
  obtain ⟨q', hq', hfixed⟩ := hm.pool_fixed hp
  cases hq.symm.trans hq'
  exact ⟨p, hp, hfixed⟩

/-- A flight is not refused for a full queue if the queue has a place for every registered action. -/
theorem Move.room {capacity : Nat} (hm : Move s act s' events) (hs : s.Sane) (hp : s.pool = some p)
    (hcap : s.registrations.length ≤ p.channel.capacity)
    (hreg : ∀ (n : Nat) (f : Flight), s.flights[n]? = some f → f.action.index < s.registrations.length) :
    .pool (.refused n (.queueFull capacity)) ∉ events := by
  intro he
  obtain ⟨c, refusal, rest, f, p', q, pooled, -, hcs, -, hp', ha, hr, -⟩ := hm.refused he
  cases hp.symm.trans hp'
  obtain rfl := hs.regular.orderly.owner hs.pooled hcs (by simp [Call.suits])
  have hlength := (waiting_submitting hp hcs).length_le hs hreg
  cases ha with
  | full _ _ _ hfull => simp only [List.length_cons] at hlength; omega
  | _ => simp at hr

end Scheduler

namespace System

variable {sys sys' : System} {history : List Moment} {p : Pool Nat WorkStage}

theorem Reachable.registered (h : Reachable history sys) (hpool : sys.scheduler.isSynchronous = false) (n : Nat)
    (f : Flight) (hf : sys.scheduler.flights[n]? = some f) : f.action.index < sys.scheduler.registrations.length := by
  have hfed := h.fed (P := fun id _ => id.index < sys.scheduler.registrations.length) hpool
    fun _ _ _ _ _ _ _ hr _ => (List.getElem?_eq_some_iff.mp hr).1
  exact hfed.1.flights n f hf

theorem Reachable.capacity (h : Reachable history sys) :
    ∀ p, sys.scheduler.pool = some p → p.channel.capacity = p.settings.capacity := by
  refine h.invariant (P := fun _ sys => ∀ p, sys.scheduler.pool = some p → p.channel.capacity = p.settings.capacity)
    (fun sys hb p hp => ?_) fun {_ sys _ sys' _} _ ih hs => ?_
  · rcases hb.pool with hnone | ⟨name, settings, hp'⟩
    · cases hnone.symm.trans hp
    · cases hp'.symm.trans hp; rfl
  · refine step_scheduler (P := fun s => ∀ p, s.pool = some p → p.channel.capacity = p.settings.capacity) hs ih ?_
    intro a hm q hq
    obtain ⟨p, hp, hfixed⟩ := hm.pool_before hq
    exact hfixed.capacity.trans ((ih p hp).trans (congrArg _ hfixed.settings).symm)

/-- No two flights in the queue of a pool are of one action, so it never holds more than one for each registered
action; and if its capacity is their number at least, no submission ever finds it full. -/
theorem queue_never_full (h : Reachable history sys) (hp : sys.scheduler.pool = some p) :
    ((p.queue.map sys.scheduler.actionOf?).Nodup ∧ (∀ n ∈ p.queue, ∃ f, sys.scheduler.flights[n]? = some f) ∧
      p.queue.length ≤ sys.scheduler.registrations.length) ∧
    (sys.scheduler.registrations.length ≤ p.settings.capacity →
      ∀ moment ∈ history, ∀ n capacity, .pool (.refused n (.queueFull capacity)) ∉ moment.events) := by
  have hpool : sys.scheduler.isSynchronous = false := by simp [Scheduler.isSynchronous, hp]
  have hsane := h.sane hpool
  have hwaiting := Scheduler.waiting_queue hp
  refine ⟨⟨hwaiting.distinct hsane, fun n => hwaiting.started hsane, hwaiting.length_le hsane (h.registered hpool)⟩, ?_⟩
  refine h.sane_invariant (P := fun history sys => ∀ p, sys.scheduler.pool = some p →
    sys.scheduler.registrations.length ≤ p.settings.capacity →
      ∀ moment ∈ history, ∀ n capacity, .pool (.refused n (.queueFull capacity)) ∉ moment.events) ?_ ?_ hpool p hp
  · intro sys _ p _ _ moment hmem
    cases hmem
  · intro history sys act sys' events hreach hsane ih hs q hq hcap moment hmem n capacity
    rcases step_cases hs with ⟨rfl, rfl, rfl⟩ | ⟨a, loop, rfl, -, hm, -⟩
    · rcases List.mem_cons.mp hmem with rfl | hmem
      · exact List.not_mem_nil
      · exact ih q hq hcap moment hmem n capacity
    · obtain ⟨p, hp, hfixed⟩ := hm.pool_before hq
      rw [hm.keeps.registrations, hfixed.settings] at hcap
      rcases List.mem_cons.mp hmem with rfl | hmem
      · exact hm.room hsane hp (hreach.capacity p hp ▸ hcap) (hreach.registered hsane.pooled)
      · exact ih p hp hcap moment hmem n capacity

end System

end

namespace System

/-- A plan of two actions, for a pool of one worker with two places in its queue. -/
def narrowPlan : Plan :=
  { (({} : Plan).register .get .string false).register .get .string false with
    executor := some .loop, settings := some { PoolSettings.serial with capacity := 2 } }

/-- While the worker is about to hand back the first flight, which has its outcome, the second one and then the first
one again are queued. -/
theorem two_flights_fill_queue : ∃ history sys p, Reachable history sys ∧ sys.scheduler.pool = some p ∧
    sys.scheduler.registrations.length = 2 ∧ p.settings.capacity = 2 ∧ p.queue = [1, 0] ∧
    ∀ moment ∈ history, ∀ n capacity, .pool (.refused n (.queueFull capacity)) ∉ moment.events := by
  let acts : List SystemAct :=
    [ .thread (.apply .owner ⟨0⟩ (.string "a")), .thread (.advance .owner none), .thread (.advance .owner none),
      .thread (.advance (.worker 1) none), .thread (.advance (.worker 1) none), .thread (.advance (.worker 1) none),
      .thread (.advance (.worker 1) none), .thread (.reply (.worker 1) (.value (some (.string "x")))),
      .thread (.advance (.worker 1) none),
      .thread (.apply .owner ⟨1⟩ (.string "b")), .thread (.advance .owner none), .thread (.advance .owner none),
      .thread (.apply .owner ⟨0⟩ (.string "c")), .thread (.advance .owner none), .thread (.advance .owner none),
      .thread (.advance .owner none) ]
  obtain ⟨s, history, sys, p, hopen, hr, hp, hlength, hcapacity, hqueue⟩ : ∃ s history sys p,
      narrowPlan.opening "narrow" "narrow" 1 = .opened s ∧ replay acts [] { scheduler := s } = some (history, sys) ∧
      sys.scheduler.pool = some p ∧ sys.scheduler.registrations.length = 2 ∧ p.settings.capacity = 2 ∧ p.queue = [1, 0] :=
    ⟨_, _, _, _, rfl, rfl, rfl, rfl, rfl, rfl⟩
  have hnumbered : Numbered narrowPlan.registrations :=
    Numbered.register (.register (fun _ _ h => by cases h) .get .string false) .get .string false
  have hreach := replay_reachable ⟨narrowPlan, "narrow", "narrow", 1, s, hnumbered, hopen, .start⟩ hr
  have hfits : sys.scheduler.registrations.length ≤ p.settings.capacity := by omega
  exact ⟨history, sys, p, hreach, hp, hlength, hcapacity, hqueue, (queue_never_full hreach hp).2 hfits⟩

end System

end SingleFlight
