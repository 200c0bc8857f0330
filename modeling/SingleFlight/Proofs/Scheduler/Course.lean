import SingleFlight.Proofs.Scheduler.Workers

/-!
# The course of a flight

What a move of a scheduler with a pool does to the contents of one flight, the inputs that the flight accepts
meanwhile, and whether its outcome is taken.
-/

namespace SingleFlight

variable [Payloads]

/-- The input that the flight accepts. -/
def SchedulerEvent.input? (n : Nat) : SchedulerEvent → Option Payload
  | .queued m _ _ input => if m = n then some input else none
  | .superseded m _ input _ => if m = n then some input else none
  | .rearmed m _ input _ => if m = n then some input else none
  | _ => none

/-- The inputs that the flight accepts, oldest first. -/
def inputs (n : Nat) (events : List SchedulerEvent) : List Payload := events.filterMap (SchedulerEvent.input? n)

/-- The event says that the outcome of the flight is taken for its delivery. -/
def SchedulerEvent.delivers (n : Nat) : SchedulerEvent → Bool
  | .delivered m _ _ => m = n
  | _ => false

/-- The event says that the outcome of the flight goes to its callback. -/
def SchedulerEvent.notifies (n : Nat) : SchedulerEvent → Bool
  | .notified _ m _ _ _ => m = n
  | _ => false

def deliveries (n : Nat) (events : List SchedulerEvent) : Nat := events.countP (SchedulerEvent.delivers n)

def notifications (n : Nat) (events : List SchedulerEvent) : Nat := events.countP (SchedulerEvent.notifies n)

/-- The call is about to give the outcome of the flight to its callback. -/
def Call.delivers (n : Nat) : Call → Bool
  | .delivering m _ => m = n
  | _ => false

/-- Whether an event marks an input or the delivery of a flight. -/
def SchedulerEvent.isMark : SchedulerEvent → Bool
  | .queued _ _ _ _ => true
  | .superseded _ _ _ _ => true
  | .rearmed _ _ _ _ => true
  | .delivered _ _ _ => true
  | .notified _ _ _ _ _ => true
  | _ => false

/-- What a delivery depends on. -/
def Flight.contents (f : Flight) : Payload × Signal × FlightPhase × Option Outcome × Nat :=
  (f.input, f.signal, f.phase, f.output, f.attempts)

/-- Events without marks. -/
def Unmarked (events : List SchedulerEvent) : Prop := ∀ e ∈ events, e.isMark = false

theorem Unmarked.append {l r : List SchedulerEvent} (hl : Unmarked l) (hr : Unmarked r) : Unmarked (l ++ r) := by
  intro e he
  exact (List.mem_append.mp he).elim (hl e) (hr e)

theorem Unmarked.pooled (pooled : List (PoolEvent Nat)) : Unmarked (pooled.map .pool) := by
  intro e he
  obtain ⟨p, -, rfl⟩ := List.mem_map.mp he
  rfl

theorem Unmarked.inputs {events : List SchedulerEvent} (h : Unmarked events) (n : Nat) : inputs n events = [] := by
  rw [SingleFlight.inputs, List.filterMap_eq_nil_iff]
  intro e he
  have := h e he
  cases e <;> first | rfl | cases this

theorem Unmarked.deliveries {events : List SchedulerEvent} (h : Unmarked events) (n : Nat) :
    deliveries n events = 0 := by
  rw [SingleFlight.deliveries, List.countP_eq_zero]
  intro e he hd
  have := h e he
  cases e <;> first | cases hd | cases this

theorem Unmarked.notifications {events : List SchedulerEvent} (h : Unmarked events) (n : Nat) :
    notifications n events = 0 := by
  rw [SingleFlight.notifications, List.countP_eq_zero]
  intro e he hd
  have := h e he
  cases e <;> first | cases hd | cases this

namespace Scheduler

variable {s s' : Scheduler} {act : SchedulerAct} {c : Caller} {n m : Nat} {f g : Flight}
  {events : List SchedulerEvent}

/-- `Course s n events before after`: what a move does to a flight, if there is one. -/
inductive Course (s : Scheduler) (n : Nat) (events : List SchedulerEvent) : Option Flight → Option Flight → Prop
  | absent : inputs n events = [] → Course s n events none none
  | started {r input} : events = [.queued n r.id r.kind input] → Course s n events none (some (Flight.of r input))
  | kept {x y : Flight} : inputs n events = [] → y.input = x.input → y.signal = x.signal →
      (y.phase = .completed → x.phase = .completed ∧ y.output = x.output) → x.attempts ≤ y.attempts →
      Course s n events (some x) (some y)
  | renewed {x y : Flight} {input} : inputs n events = [input] → x.phase ≠ .closed → y.input = input →
      y.signal = x.signal.bump → y.phase ≠ .completed → y.phase ≠ .closed → y.attempts = x.attempts →
      Course s n events (some x) (some y)
  | stopped {x y : Flight} : inputs n events = [] → s.isClosed = true → y.input = x.input →
      y.signal = x.signal.interrupt → (y.phase = .completed → x.phase = .completed ∧ y.output = x.output) →
      y.attempts = x.attempts → Course s n events (some x) (some y)
  | stored {x : Flight} {w p token outcome} : inputs n events = [] → s.pool = some p → s.callsOf (.worker w) = [] →
      p.phase? w = some (.working n (.running (.settling token outcome))) → x.phase ≠ .closed →
      x.signal.interrupted = true ∨ x.signal.generation = token.started →
      Course s n events (some x) (some { x with output := some outcome, phase := .completed })
  | failed {x : Flight} {w p panic message} : inputs n events = [] → s.pool = some p →
      p.phase? w = some (.worked n panic (.failing message)) → Course s n events (some x) (some (x.fail message))

theorem Course.of_contents (hin : inputs n events = [])
    (h : (s'.flights[n]?).map Flight.contents = (s.flights[n]?).map Flight.contents) :
    Course s n events s.flights[n]? s'.flights[n]? := by
  cases hf : s.flights[n]? with
  | none =>
      cases hg : s'.flights[n]? with
      | none => exact .absent hin
      | some g => rw [hf, hg] at h; cases h
  | some f =>
      cases hg : s'.flights[n]? with
      | none => rw [hf, hg] at h; cases h
      | some g =>
          rw [hf, hg] at h
          simp only [Flight.contents, Option.map_some, Option.some.injEq, Prod.mk.injEq] at h
          obtain ⟨hi, hgen, hp, ho, ha⟩ := h
          exact .kept hin hi hgen (fun hd => ⟨hp ▸ hd, ho⟩) (Nat.le_of_eq ha.symm)

theorem Course.of_modify {change : Flight → Flight} (hin : inputs n events = [])
    (hset : s'.flights = s.flights.modify m change)
    (hstop : ∀ x, Course s n events (some x) (some (change x))) : Course s n events s.flights[n]? s'.flights[n]? := by
  rw [hset, List.getElem?_modify]
  cases s.flights[n]? with
  | none => exact .absent hin
  | some f =>
      by_cases e : m = n
      · simpa [e] using hstop f
      · simpa [e] using Course.kept hin rfl rfl (fun hd => ⟨hd, rfl⟩) (Nat.le_refl _)

/-! ## What a course tells -/

theorem Course.newest {before after : Option Flight} (h : Course s n events before after) :
    after.map Flight.input = (inputs n events).getLast?.or (before.map Flight.input) := by
  cases h with
  | absent hin => rw [hin]; rfl
  | started hev => rw [hev]; simp [inputs, SchedulerEvent.input?, Flight.of]
  | kept hin hi | stopped hin _ hi => rw [hin]; simp [hi]
  | renewed hin _ hi => rw [hin]; simp [hi]
  | stored hin => rw [hin]; rfl
  | failed hin => rw [hin]; unfold Flight.fail; split <;> rfl

/-- The generation of a flight counts its inputs. -/
theorem Course.generation (h : Course s n events (some f) (some g)) :
    g.signal.generation = f.signal.generation + UInt64.ofNat (inputs n events).length := by
  cases h with
  | kept hin _ hs => simp [hin, hs]
  | stopped hin _ _ hs => simp [hin, hs, Signal.interrupt]
  | renewed hin _ _ hs => simp [hin, hs, Signal.bump]
  | stored hin => simp [hin]
  | failed hin => unfold Flight.fail; split <;> simp [hin]

theorem Course.closed {before : Option Flight} (h : Course s n events before (some g)) (hc : g.phase = .closed) :
    inputs n events = [] := by
  cases h with
  | started => cases hc
  | renewed _ _ _ _ _ hne => exact absurd hc hne
  | kept hin | stopped hin | stored hin | failed hin => exact hin

theorem Course.attempts (h : Course s n events (some f) (some g)) : f.attempts ≤ g.attempts := by
  cases h with
  | kept _ _ _ _ ha => exact ha
  | stopped _ _ _ _ _ ha | renewed _ _ _ _ _ _ ha => exact Nat.le_of_eq ha.symm
  | stored => exact Nat.le_refl _
  | failed => unfold Flight.fail; split <;> exact Nat.le_refl _

theorem Course.calm {before : Option Flight} (h : Course s n events before (some g)) (hopen : s.isClosed = false)
    (hcalm : ∀ f, before = some f → f.signal.interrupted = false) : g.signal.interrupted = false := by
  cases h with
  | started => rfl
  | kept _ _ hs => rw [hs]; exact hcalm _ rfl
  | renewed _ _ _ hs => rw [hs]; exact hcalm _ rfl
  | stopped _ hc => rw [hopen] at hc; cases hc
  | @stored f => exact hcalm f rfl
  | @failed f => unfold Flight.fail; split <;> exact hcalm f rfl

/-! ## Moves without marks -/

theorem Turn.inputs {cs cs' : List Call} (h : Turn s act c cs cs' events) (n : Nat) :
    SingleFlight.inputs n events = [] := by
  cases h <;> rfl

theorem Turn.deliveries {cs cs' : List Call} (h : Turn s act c cs cs' events) (n : Nat) :
    SingleFlight.deliveries n events = 0 := by
  cases h <;> rfl

/-- A turn tells the callback of an outcome that it was about to get. -/
theorem Turn.notifications {cs cs' : List Call} (h : Turn s act c cs cs' events) (n : Nat) :
    cs'.countP (Call.delivers n) + SingleFlight.notifications n events = cs.countP (Call.delivers n) := by
  cases h <;> simp [SingleFlight.notifications, SchedulerEvent.notifies, Call.delivers, List.countP_cons]

theorem Running.unmarked {stage : RunStage} {next : RunStep} (h : Running s c m f stage g next events) :
    Unmarked events := by
  intro e he
  cases h <;> simp only [List.mem_cons, List.not_mem_nil, or_false] at he <;> subst he <;> rfl

theorem Labour.unmarked {w : Nat} {name : String} {a b : WorkerPhase Nat WorkStage}
    (h : Labour s w name m f act a g b events) : Unmarked events := by
  cases h with
  | ran hr =>
      refine hr.unmarked.append fun e he => ?_
      unfold RunStep.panics at he
      split at he
      · obtain rfl := List.mem_singleton.mp he; rfl
      · cases he
  | bound => intro e he; simp at he; rcases he with rfl | rfl | rfl <;> rfl
  | withheld | posted => intro e he; simp at he; rcases he with rfl | rfl <;> rfl
  | _ => intro e he; cases he

theorem submission_unmarked (pooled : List (PoolEvent Nat)) (pool : String) (id : ActionId) (error : Option PoolError) :
    Unmarked (pooled.map .pool ++ submissionAnswer c pool id error) := by
  refine (Unmarked.pooled pooled).append fun e he => ?_
  unfold submissionAnswer at he
  split at he
  all_goals
    simp only [List.mem_cons, List.not_mem_nil, or_false] at he
    rcases he with rfl | rfl <;> rfl

/-! ## Every move -/

theorem Labour.course {w : Nat} {p : Pool Nat WorkStage} {a b : WorkerPhase Nat WorkStage}
    (h : Labour s w (p.workerName w) n f act a g b events) (hcs : s.callsOf (.worker w) = [])
    (hp : s.pool = some p) (hw : p.phase? w = some a) : Course s n events (some f) (some g) := by
  have hin := h.unmarked.inputs n
  cases h with
  | bound => exact .kept hin rfl rfl (fun hd => ⟨hd, rfl⟩) (Nat.le_refl _)
  | ran hr =>
      cases hr with
      | refused | dropped | retried => exact .kept hin rfl rfl (fun hd => ⟨hd, rfl⟩) (Nat.le_refl _)
      | exhausted => exact .kept hin rfl rfl (fun hd => by cases hd) (Nat.le_refl _)
      | uncopied | mistyped | called => exact .kept hin rfl rfl (fun hd => by cases hd) (Nat.le_succ _)
      | stored hc hg => exact .stored hin hp hcs hw hc hg
  | failed => exact .failed hin hp hw
  | unbound =>
      unfold Flight.unbind
      split
      · exact .kept hin rfl rfl (fun hd => ⟨hd, rfl⟩) (Nat.le_refl _)
      · exact .kept hin rfl rfl (fun hd => ⟨hd, rfl⟩) (Nat.le_refl _)
  | answered | withheld | returned | posted => exact .kept hin rfl rfl (fun hd => ⟨hd, rfl⟩) (Nat.le_refl _)

theorem Course.of_set (hf : s.flights[m]? = some f) (hset : s'.flights = (s.setFlight m g).flights)
    (hself : n = m → Course s n events (some f) (some g)) (hin : n ≠ m → inputs n events = []) :
    Course s n events s.flights[n]? s'.flights[n]? := by
  have hflight : s'.flights[n]? = if n = m then some g else s.flights[n]? := by
    rw [hset]; exact flights_setFlight hf g n
  by_cases e : n = m
  · have := hself e
    rw [hflight, if_pos e, e, hf]
    exact e ▸ this
  · refine .of_contents (hin e) ?_
    rw [hflight, if_neg e]

/-- With a pool, what a move does to every flight. -/
theorem Move.course (hm : Move s act s' events) (h : s.Sane) (n : Nat) :
    Course s n events s.flights[n]? s'.flights[n]? := by
  cases hm with
  | unknown | mismatched | late | ignored | shutAgain | shut | reported | undone => exact .of_contents rfl rfl
  | turned ht => exact .of_contents (ht.inputs n) rfl
  | @launched _ _ id input r _ _ _ _ hr =>
      have hid : r.id = id := h.charted.numbered id.index r hr
      by_cases e : n = s.flights.length
      · subst e
        have : Course s s.flights.length _ none (some (Flight.of r input)) := .started (by rw [hid])
        simpa using this
      · exact .of_contents (by simp [inputs, SchedulerEvent.input?, Ne.symm e]) (by simp [flights_concat, e])
  | superseded _ hf hc hd =>
      refine .of_set hf rfl ?_ fun e => ?_
      · rintro rfl
        exact .renewed (by simp [inputs, SchedulerEvent.input?, Flight.renewed]) hc rfl rfl hd hc rfl
      · simp [inputs, SchedulerEvent.input?, Ne.symm e]
  | rearmed _ hf hd =>
      refine .of_set hf rfl ?_ fun e => ?_
      · rintro rfl
        exact .renewed (by simp [inputs, SchedulerEvent.input?, Flight.renewed]) (by simp [hd]) rfl rfl (by simp) (by simp) rfl
      · simp [inputs, SchedulerEvent.input?, Ne.symm e]
  | submitted => exact .of_contents ((submission_unmarked _ _ _ _).inputs n) rfl
  | collected _ hf =>
      refine .of_set hf rfl ?_ fun _ => rfl
      rintro rfl
      exact .kept rfl rfl rfl (fun hd => by cases hd) (Nat.le_refl _)
  | inlined _ hs => cases h.pooled.symm.trans hs
  | ranInline hcs | took hcs => cases h.regular.orderly.suited h.pooled hcs
  | worked hcs hp hw hf hl =>
      refine .of_set hf rfl ?_ fun _ => hl.unmarked.inputs n
      rintro rfl
      exact hl.course hcs hp hw
  | warned _ hp _ hs =>
      have hc := h.regular.stopping _ hp hs
      exact .of_modify rfl rfl fun x => .stopped rfl hc rfl rfl (fun hd => ⟨hd, rfl⟩) rfl
  | alarmed _ hk =>
      have hc := h.regular.closing (by simp [hk])
      exact .of_modify rfl rfl fun x => .stopped rfl hc rfl rfl (fun hd => ⟨hd, rfl⟩) rfl
  | gaveUp _ hk =>
      have hc := h.regular.closing (by simp [hk])
      exact .of_modify rfl rfl fun x => .stopped rfl hc rfl rfl (fun hd => by cases hd) rfl
  | idled | halted => exact .of_contents ((Unmarked.pooled _).inputs n) rfl
  | abandoned => exact .of_contents rfl rfl

theorem Move.queued {id : ActionId} {kind : ActionKind} {input : Payload} (hm : Move s act s' events) (h : s.Sane)
    (he : .queued n id kind input ∈ events) :
    ∃ f, s'.flights[n]? = some f ∧ f.action = id := by
  have hnone : s.flights[n]? = none := by
    cases hm.news he rfl with
    | queued => exact List.getElem?_eq_none (Nat.le_refl _)
  have hcourse := hm.course h n
  rw [hnone] at hcourse
  generalize s'.flights[n]? = after at hcourse
  cases hcourse with
  | absent hin =>
      have := List.filterMap_eq_nil_iff.mp hin _ he
      simp [SchedulerEvent.input?] at this
  | started hev =>
      rw [hev] at he
      cases List.mem_singleton.mp he
      exact ⟨_, rfl, rfl⟩

theorem Move.stays_closed (hm : Move s act s' events) (hc : (s.standing n).phase = some .closed) :
    (s'.standing n).phase = some .closed := by
  obtain ⟨f, hf, hp⟩ : ∃ f, s.flights[n]? = some f ∧ f.phase = .closed := by
    simpa [standing, Option.map_eq_some_iff] using hc
  obtain ⟨g, hg, hpers⟩ := hm.persists hf
  simp [standing, hg, hpers.closed hp]

/-! ## Deliveries -/

theorem Move.deliveries (hm : Move s act s' events) (h : s.Sane) (n : Nat) :
    SingleFlight.deliveries n events = 0 ∨
      SingleFlight.deliveries n events = 1 ∧ (s.standing n).phase = some .completed ∧
        (s'.standing n).phase = some .closed := by
  cases hm with
  | turned ht => exact .inl (ht.deliveries n)
  | submitted => exact .inl ((submission_unmarked _ _ _ _).deliveries n)
  | @collected _ _ m f _ _ _ hf _ hd =>
      by_cases e : m = n
      · subst e
        refine .inr ⟨by simp [SingleFlight.deliveries, SchedulerEvent.delivers], by simp [standing, hf, hd], ?_⟩
        simp [standing, flights_setFlight hf, Flight.landed]
      · exact .inl (by simp [SingleFlight.deliveries, SchedulerEvent.delivers, e])
  | ranInline hcs | took hcs => cases h.regular.orderly.suited h.pooled hcs
  | worked _ _ _ _ hl => exact .inl (hl.unmarked.deliveries n)
  | idled | halted => exact .inl ((Unmarked.pooled _).deliveries n)
  | _ => exact .inl rfl

/-- A flight stays in the air until its outcome is taken or the scheduler is closed. -/
theorem Move.lands {id : ActionId} (hm : Move s act s' events) (h : s.Sane) (hn : (id, n) ∈ s.inFlight) :
    s'.isClosed = true ∨ (id, n) ∈ s'.inFlight ∨ SingleFlight.deliveries n events = 1 := by
  cases hm with
  | launched => exact .inr (.inl (List.mem_append_left _ hn))
  | @collected _ _ m f _ _ _ _ hin =>
      right
      by_cases e : id = f.action
      · subst e
        obtain rfl := h.charted.unique hn (mem_of_flightOf? hin)
        right; simp [SingleFlight.deliveries, SchedulerEvent.delivers]
      · left
        simp only [inFlight_setCalls, List.mem_filter]
        exact ⟨hn, by simp [e]⟩
  | shut => exact .inl rfl
  | _ => exact .inr (.inl hn)

/-- A flight that a move of an open scheduler closes is delivered by it. -/
theorem Move.closes (hm : Move s act s' events) (h : s.Sane) (hopen : s'.isClosed = false)
    (hbefore : (s.standing n).phase ≠ some .closed)
    (hafter : (s'.standing n).phase = some .closed) : SingleFlight.deliveries n events = 1 := by
  obtain ⟨g, hg, hgc⟩ : ∃ g, s'.flights[n]? = some g ∧ g.phase = .closed := by
    simpa [standing, Option.map_eq_some_iff] using hafter
  cases hf : s.flights[n]? with
  | none =>
      have hcourse := hm.course h n
      rw [hf, hg] at hcourse
      cases hcourse with
      | started => cases hgc
  | some f =>
      have hin := h.charted.complete (hm.keeps.opened hopen) n f hf (by simpa [standing, hf] using hbefore)
      rcases hm.lands h hin with hc | hin | hd
      · rw [hopen] at hc; cases hc
      · obtain ⟨g', -, hg', -, hne, -⟩ := (hm.sane h).charted.charted _ n hin
        cases hg.symm.trans hg'
        exact absurd hgc hne
      · exact hd

/-- With a pool, the outcomes that the owner is about to give away are those that were taken and did not go to
their callbacks. -/
theorem Move.notifications (hm : Move s act s' events) (h : s.Sane) (n : Nat) :
    (s'.callsOf .owner).countP (Call.delivers n) + SingleFlight.notifications n events
      = (s.callsOf .owner).countP (Call.delivers n) + SingleFlight.deliveries n events := by
  have hquiet (hcs : (s'.callsOf .owner).countP (Call.delivers n) = (s.callsOf .owner).countP (Call.delivers n))
      (he : Unmarked events) :
      (s'.callsOf .owner).countP (Call.delivers n) + SingleFlight.notifications n events
        = (s.callsOf .owner).countP (Call.delivers n) + SingleFlight.deliveries n events := by
    rw [hcs, he.notifications, he.deliveries]
  have hplain {l : List SchedulerEvent} (hn : SingleFlight.notifications n l = 0) (hd : SingleFlight.deliveries n l = 0)
      {x y : Nat} (hxy : x = y) : x + SingleFlight.notifications n l = y + SingleFlight.deliveries n l := by
    rw [hn, hd, hxy]
  cases hm with
  | unknown | mismatched | late | ignored | shutAgain => exact hplain rfl rfl rfl
  | @turned _ c cs _ ht =>
      rw [ht.deliveries n, Nat.add_zero]
      by_cases hc : c = .owner
      · subst hc
        rw [callsOf_setCalls_self]
        exact ht.notifications n
      · have hnone : (s.callsOf c).countP (Call.delivers n) = 0 := by
          rw [List.countP_eq_zero]
          intro x hx hd
          have := (h.regular.orderly c).suits x hx
          rw [h.pooled] at this
          cases x <;> first | cases hd | simp [Call.suits, hc] at this
        have := ht.notifications n
        rw [callsOf_setCalls, if_neg (Ne.symm hc)]
        omega
  | launched hcs | rearmed hcs =>
      exact hplain rfl rfl (countP_setCalls _ (countP_callsOf hcs rfl (List.countP_cons_of_neg (by simp [Call.delivers]))))
  | superseded hcs => exact hplain rfl rfl (countP_setCalls _ (countP_callsOf hcs rfl rfl))
  | submitted hcs => exact hquiet (countP_setCalls _ (countP_callsOf hcs rfl rfl)) (submission_unmarked _ _ _ _)
  | @collected c _ m f outcome rest hcs =>
      obtain rfl := h.regular.orderly.owner h.pooled hcs (by simp [Call.suits])
      rw [callsOf_setCalls_self, hcs]
      by_cases e : m = n <;>
        simp [SingleFlight.notifications, SingleFlight.deliveries, SchedulerEvent.notifies, SchedulerEvent.delivers,
          Call.delivers, e]
  | inlined _ hs => cases h.pooled.symm.trans hs
  | ranInline hcs | took hcs => cases h.regular.orderly.suited h.pooled hcs
  | worked _ _ _ _ hl => exact hquiet rfl hl.unmarked
  | idled | halted => exact hquiet rfl (Unmarked.pooled _)
  | shut => exact hplain rfl rfl (countP_setCalls _ (List.countP_cons_of_neg (by simp [Call.delivers])))
  | warned | alarmed | abandoned | reported | undone | gaveUp => exact hplain rfl rfl rfl

theorem Move.tells {id : ActionId} {kind : ActionKind} {d : Delivery} (hm : Move s act s' events) (h : s.Sane)
    (he : .notified c n id kind d ∈ events) : c = .owner ∧ ∃ o rest f r, s.callsOf .owner = .delivering n o :: rest ∧
      s.flights[n]? = some f ∧ f.action = id ∧ s.registration? id = some r ∧ d = r.deliver o := by
  cases hm.news he rfl with
  | @notified _ _ _ o f r rest hcs hf hr =>
      obtain rfl := h.regular.orderly.owner h.pooled hcs (by simp [Call.suits])
      have hid : r.id = f.action := h.charted.numbered f.action.index r hr
      exact ⟨rfl, o, rest, f, r, hcs, hf, hid.symm, hid ▸ hr, rfl⟩

end Scheduler

end SingleFlight
