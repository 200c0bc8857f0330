import SingleFlight.Proofs.Scheduler.Moves

/-!
# What every move keeps

The registrations, whether there is a pool, and that a scheduler stays closed; the flights with their
actions; and the order of the calls of each thread: a thread calls the scheduler from code of the host only,
and with a pool only the owner looks at flights.
-/

namespace SingleFlight

variable [Payloads]

/-- Whether a call has handed control to the host. -/
def Call.isOutside : Call → Bool
  | .calling _ => true
  | .running _ (.invoking _ _) => true
  | _ => false

/-- Whether a thread may have such a call, without a pool and with one. -/
def Call.suits (synchronous : Bool) (c : Caller) : Call → Bool
  | .posting _ _ => !synchronous && c ≠ .owner
  | .applying _ _ => !synchronous && c = .owner
  | .offering _ _ => !synchronous && c = .owner
  | .submitting _ => !synchronous && c = .owner
  | .finishing _ => !synchronous && c = .owner
  | .running _ _ => synchronous
  | .taking _ => synchronous
  | .delivering _ _ => synchronous || c = .owner
  | .calling _ => synchronous || c = .owner
  | .closing => true

namespace Scheduler

variable {s s' : Scheduler} {act : SchedulerAct} {c d : Caller} {n : Nat} {events : List SchedulerEvent}

/-! ## Calls and the rest -/

theorem callsOf_setCalls (s : Scheduler) (c d : Caller) (cs : List Call) :
    (s.setCalls c cs).callsOf d = if d = c then cs else s.callsOf d := by
  unfold callsOf setCalls
  rw [List.find?_cons]
  by_cases h : c = d
  · simp [h]
  · have hd : d ≠ c := fun e => h e.symm
    simp only [h, decide_false, hd, ↓reduceIte, List.find?_filter]
    congr 3
    funext x
    by_cases hx : x.1 = d <;> simp [hx, hd]

@[simp] theorem callsOf_setCalls_self (s : Scheduler) (c : Caller) (cs : List Call) :
    (s.setCalls c cs).callsOf c = cs := by
  simp [callsOf_setCalls]

theorem callsOf_congr {u : Scheduler} (h : u.calls = s.calls) : u.callsOf c = s.callsOf c := by
  simp [callsOf, h]

@[simp] theorem callsOf_setFlight (s : Scheduler) (n : Nat) (f : Flight) : (s.setFlight n f).callsOf c = s.callsOf c :=
  rfl

@[simp] theorem pool_setCalls (s : Scheduler) (c : Caller) (cs : List Call) : (s.setCalls c cs).pool = s.pool := rfl

@[simp] theorem flights_setCalls (s : Scheduler) (c : Caller) (cs : List Call) :
    (s.setCalls c cs).flights = s.flights := rfl

@[simp] theorem inFlight_setCalls (s : Scheduler) (c : Caller) (cs : List Call) :
    (s.setCalls c cs).inFlight = s.inFlight := rfl

@[simp] theorem isClosed_setCalls (s : Scheduler) (c : Caller) (cs : List Call) :
    (s.setCalls c cs).isClosed = s.isClosed := rfl

@[simp] theorem closing_setCalls (s : Scheduler) (c : Caller) (cs : List Call) :
    (s.setCalls c cs).closing = s.closing := rfl

@[simp] theorem registrations_setCalls (s : Scheduler) (c : Caller) (cs : List Call) :
    (s.setCalls c cs).registrations = s.registrations := rfl

@[simp] theorem pool_setFlight (s : Scheduler) (n : Nat) (f : Flight) : (s.setFlight n f).pool = s.pool := rfl

@[simp] theorem inFlight_setFlight (s : Scheduler) (n : Nat) (f : Flight) :
    (s.setFlight n f).inFlight = s.inFlight := rfl

@[simp] theorem isClosed_setFlight (s : Scheduler) (n : Nat) (f : Flight) :
    (s.setFlight n f).isClosed = s.isClosed := rfl

@[simp] theorem closing_setFlight (s : Scheduler) (n : Nat) (f : Flight) :
    (s.setFlight n f).closing = s.closing := rfl

@[simp] theorem registrations_setFlight (s : Scheduler) (n : Nat) (f : Flight) :
    (s.setFlight n f).registrations = s.registrations := rfl

theorem flights_setFlight {f : Flight} (h : s.flights[n]? = some f) (g : Flight) (m : Nat) :
    (s.setFlight n g).flights[m]? = if m = n then some g else s.flights[m]? := by
  have hlt := (List.getElem?_eq_some_iff.mp h).1
  simp only [setFlight, List.getElem?_set]
  by_cases hm : n = m
  · subst hm; simp [hlt]
  · simp [hm, eq_comm]

theorem flights_concat (s : Scheduler) (f : Flight) (m : Nat) :
    (s.flights ++ [f])[m]? = if m = s.flights.length then some f else s.flights[m]? := by
  rw [List.getElem?_append]
  split
  · rename_i hlt
    rw [if_neg (Nat.ne_of_lt hlt)]
  · split
    · rename_i he; simp [he]
    · rename_i hge hne
      rw [List.getElem?_eq_none (by simp; omega), List.getElem?_eq_none (Nat.le_of_not_lt hge)]

theorem flights_concat_some {f : Flight} (h : s.flights[n]? = some f) (g : Flight) :
    (s.flights ++ [g])[n]? = some f := by
  rw [flights_concat, if_neg (Nat.ne_of_lt (List.getElem?_eq_some_iff.mp h).1), h]

/-- What a change of one flight leaves as it is can be read off all flights. -/
theorem map_setFlight {α : Type} (view : Flight → α) {f g : Flight} (hf : s.flights[n]? = some f)
    (hg : view g = view f) (m : Nat) : ((s.setFlight n g).flights[m]?).map view = (s.flights[m]?).map view := by
  rw [flights_setFlight hf]
  by_cases e : m = n
  · subst e; simp [hf, hg]
  · simp [e]

theorem map_modify {α : Type} {view : Flight → α} {change : Flight → Flight} (h : ∀ f, view (change f) = view f)
    (n m : Nat) : ((s.flights.modify n change)[m]?).map view = (s.flights[m]?).map view := by
  rw [List.getElem?_modify]
  cases s.flights[m]? with
  | none => rfl
  | some f => by_cases e : n = m <;> simp [e, h]

/-! ## Constants -/

/-- What is settled when the scheduler is built, and that the closing of a scheduler is for good. -/
structure Keeps (s s' : Scheduler) : Prop where
  registrations : s'.registrations = s.registrations
  synchronous : s'.isSynchronous = s.isSynchronous
  closed : s.isClosed = true → s'.isClosed = true

theorem Keeps.opened (h : Keeps s s') (hopen : s'.isClosed = false) : s.isClosed = false := by
  cases hc : s.isClosed with
  | false => rfl
  | true => rw [h.closed hc] at hopen; cases hopen

theorem Move.keeps (h : Move s act s' events) : Keeps s s' := by
  cases h with
  | submitted _ _ hp _ | worked _ hp _ _ _ | warned _ hp _ _ | idled _ hp _ _ _ | halted _ _ _ hp _ _
  | alarmed _ _ _ hp _ | abandoned _ hp _ _ =>
      exact ⟨rfl, by simp [isSynchronous, hp], fun hc => hc⟩
  | shut => exact ⟨rfl, rfl, fun _ => rfl⟩
  | _ => exact ⟨rfl, rfl, fun hc => hc⟩

theorem Keeps.registration? (h : Keeps s s') (id : ActionId) : s'.registration? id = s.registration? id := by
  simp [Scheduler.registration?, h.registrations]

theorem exists_pool (h : s.isSynchronous = false) : ∃ p, s.pool = some p :=
  Option.isSome_iff_exists.mp (by simpa [isSynchronous] using h)

/-! ## Flights -/

/-- A flight stays under its number, with its action, and once closed it stays closed. -/
structure Persists (f g : Flight) : Prop where
  action : g.action = f.action
  kind : g.kind = f.kind
  closed : f.phase = .closed → g.phase = .closed

theorem Persists.refl (f : Flight) : Persists f f := ⟨rfl, rfl, fun h => h⟩

theorem Running.persists {f g : Flight} {stage : RunStage} {next : RunStep}
    (h : Running s c n f stage g next events) : Persists f g := by
  cases h with
  | refused _ | dropped _ | retried _ _ _ => exact .refl f
  | _ => exact ⟨rfl, rfl, fun hc => absurd hc ‹_›⟩

theorem Labour.persists {f g : Flight} {w : Nat} {name : String} {a b : WorkerPhase Nat WorkStage}
    (h : Labour s w name n f act a g b events) : Persists f g := by
  cases h with
  | ran hr => exact hr.persists
  | bound => exact ⟨rfl, rfl, fun h => h⟩
  | failed =>
      unfold Flight.fail
      split
      · rename_i hp
        exact ⟨rfl, rfl, fun hc => by rw [hc] at hp; cases hp⟩
      · exact .refl f
  | unbound =>
      unfold Flight.unbind
      split
      · exact ⟨rfl, rfl, fun h => h⟩
      · exact .refl f
  | _ => exact .refl f

theorem persists_modify {f : Flight} {change : Flight → Flight} (hc : ∀ f, Persists f (change f)) (m : Nat)
    (h : s.flights[n]? = some f) : ∃ g, (s.flights.modify m change)[n]? = some g ∧ Persists f g := by
  rw [List.getElem?_modify, h]
  by_cases hm : m = n
  · exact ⟨change f, by simp [hm], hc f⟩
  · exact ⟨f, by simp [hm], .refl f⟩

theorem persists_set {f f' g : Flight} {m : Nat} (hm : s.flights[m]? = some f') (hg : Persists f' g)
    (h : s.flights[n]? = some f) : ∃ k, (s.setFlight m g).flights[n]? = some k ∧ Persists f k := by
  rw [flights_setFlight hm]
  by_cases e : n = m
  · subst e
    cases hm.symm.trans h
    exact ⟨g, by simp, hg⟩
  · exact ⟨f, by simp [e, h], .refl f⟩

theorem Persists.interrupt (f : Flight) : Persists f f.interrupt := ⟨rfl, rfl, fun h => h⟩

theorem Persists.close (f : Flight) : Persists f f.close := ⟨rfl, rfl, fun _ => rfl⟩

theorem Move.persists {f : Flight} (h : Move s act s' events) (hf : s.flights[n]? = some f) :
    ∃ g, s'.flights[n]? = some g ∧ Persists f g := by
  have hstay {u : Scheduler} (hu : u.flights = s.flights) : ∃ g, u.flights[n]? = some g ∧ Persists f g :=
    ⟨f, by rw [hu]; exact hf, .refl f⟩
  have hmore {u : Scheduler} {k : Flight} (hu : u.flights = s.flights ++ [k]) :
      ∃ g, u.flights[n]? = some g ∧ Persists f g :=
    ⟨f, by rw [hu, flights_concat_some hf], .refl f⟩
  cases h with
  | launched | inlined => exact hmore rfl
  | superseded _ hm hc _ _ => exact persists_set hm ⟨rfl, rfl, fun h => absurd h hc⟩ hf
  | rearmed _ hm hd _ => exact persists_set hm ⟨rfl, rfl, fun h => by rw [hd] at h; cases h⟩ hf
  | collected _ hm _ _ _ => exact persists_set hm ⟨rfl, rfl, fun _ => rfl⟩ hf
  | took _ hm _ _ => exact persists_set hm ⟨rfl, rfl, fun _ => rfl⟩ hf
  | ranInline _ hm hr => exact persists_set hm hr.persists hf
  | worked _ _ _ hm hl => exact persists_set hm hl.persists hf
  | warned | alarmed => exact persists_modify Persists.interrupt _ hf
  | gaveUp => exact persists_modify Persists.close _ hf
  | _ => exact hstay rfl

/-! ## The order of calls -/

/-- The calls of a thread suit it, and the outer ones wait for the host. -/
structure CallsInOrder (synchronous : Bool) (c : Caller) (cs : List Call) : Prop where
  suits : ∀ x ∈ cs, x.suits synchronous c = true
  outside : ∀ x ∈ cs.tail, x.isOutside = true

/-- The calls of every thread are in order. -/
def Orderly (s : Scheduler) : Prop := ∀ c, CallsInOrder s.isSynchronous c (s.callsOf c)

theorem CallsInOrder.tail {sync : Bool} {x : Call} {cs : List Call} (h : CallsInOrder sync c (x :: cs)) :
    CallsInOrder sync c cs :=
  ⟨fun y hy => h.suits y (List.mem_cons_of_mem _ hy), fun y hy => h.outside y (List.mem_of_mem_tail hy)⟩

theorem CallsInOrder.replace {sync : Bool} {x y : Call} {cs : List Call} (h : CallsInOrder sync c (x :: cs))
    (hy : x.suits sync c = true → y.suits sync c = true) : CallsInOrder sync c (y :: cs) :=
  ⟨by simpa [hy (h.suits x List.mem_cons_self)] using h.tail.suits, h.outside⟩

theorem CallsInOrder.cons {sync : Bool} {y : Call} {cs : List Call} (h : CallsInOrder sync c cs)
    (hout : ∀ x ∈ cs, x.isOutside = true) (hy : y.suits sync c = true) : CallsInOrder sync c (y :: cs) :=
  ⟨by simpa [hy] using h.suits, hout⟩

/-- A thread calls the scheduler from code of the host. -/
theorem Orderly.outside (h : s.Orderly) (hfree : s.isFree c = true) : ∀ x ∈ s.callsOf c, x.isOutside = true := by
  have htail := (h c).outside
  unfold isFree at hfree
  cases hcs : s.callsOf c with
  | nil => intro x hx; cases hx
  | cons y ys =>
      rw [hcs] at htail hfree
      intro x hx
      rcases List.mem_cons.mp hx with rfl | hx
      · split at hfree
        · simp_all [Call.isOutside]
        · simp_all [Call.isOutside]
        · cases hfree
        · simp_all
        · simp_all
      · exact htail x hx

theorem Orderly.suited {x : Call} {rest : List Call} {sync : Bool} (h : s.Orderly) (hsync : s.isSynchronous = sync)
    (hcs : s.callsOf c = x :: rest) : x.suits sync c = true :=
  hsync ▸ (h c).suits x (hcs ▸ List.mem_cons_self)

theorem Orderly.setCalls {u : Scheduler} {cs : List Call} (h : s.Orderly) (hcalls : u.calls = s.calls)
    (hsync : u.isSynchronous = s.isSynchronous) (hcs : CallsInOrder s.isSynchronous c cs) :
    (u.setCalls c cs).Orderly := by
  intro d
  have hd : (u.setCalls c cs).isSynchronous = s.isSynchronous := hsync
  rw [hd, callsOf_setCalls]
  split
  · rename_i e; subst e; exact hcs
  · rw [callsOf_congr hcalls]; exact h d

theorem Orderly.congr {u : Scheduler} (h : s.Orderly) (hcalls : u.calls = s.calls)
    (hsync : u.isSynchronous = s.isSynchronous) : u.Orderly := by
  intro c
  rw [hsync, callsOf_congr hcalls]
  exact h c

theorem Turn.inOrder {cs cs' : List Call} (h : Turn s act c cs cs' events) (hcs : CallsInOrder s.isSynchronous c cs)
    (hfree : s.isFree c = true → ∀ x ∈ cs, x.isOutside = true) : CallsInOrder s.isSynchronous c cs' := by
  cases h with
  | requested hf hs | received hf hs | landed hf hs => exact hcs.cons (hfree hf) (by simp [Call.suits, hs])
  | sent hf hs hc => exact hcs.cons (hfree hf) (by simp [Call.suits, hs, hc])
  | found | notified | answered => exact hcs.replace fun h => h
  | _ => exact hcs.tail

theorem CallsInOrder.goOn {sync : Bool} {stage : RunStage} {rest : List Call}
    (hcs : CallsInOrder sync c (.running n stage :: rest)) (next : RunStep) :
    CallsInOrder sync c (next.calls n ++ rest) := by
  cases next with
  | stay | returned => exact hcs.replace fun h => h
  | panicked => exact hcs.tail

theorem Move.orderly (h : s.Orderly) (hm : Move s act s' events) : s'.Orderly := by
  have hsync := hm.keeps.synchronous
  cases hm with
  | unknown | mismatched | late | ignored | shutAgain => exact h
  | turned ht => exact h.setCalls rfl rfl (ht.inOrder (h _) h.outside)
  | launched hcs | rearmed hcs => exact h.setCalls rfl rfl ((hcs ▸ h _).replace fun h => h)
  | collected hcs | took hcs => exact h.setCalls rfl rfl ((hcs ▸ h _).replace (by simp_all [Call.suits]))
  | superseded hcs => exact h.setCalls rfl rfl (hcs ▸ h _).tail
  | submitted hcs => exact h.setCalls rfl hsync (hcs ▸ h _).tail
  | inlined hf hs => exact h.setCalls rfl rfl ((h _).cons (h.outside hf) hs)
  | ranInline hcs => exact h.setCalls rfl rfl ((hcs ▸ h _).goOn _)
  | shut hf => exact h.setCalls rfl rfl ((h _).cons (h.outside hf) rfl)
  | worked | warned | idled | halted | alarmed | abandoned | reported | undone | gaveUp => exact h.congr rfl hsync

/-! ## Order as a whole -/

/-- The calls and the pool are in order, and nothing stops the pool of an open scheduler. -/
structure Regular (s : Scheduler) : Prop where
  orderly : s.Orderly
  manned : ∀ p, s.pool = some p → p.Manned
  stopping : ∀ p, s.pool = some p → p.isStopping = true → s.isClosed = true
  closing : s.closing.isSome = true → s.isClosed = true

theorem Labour.idle {f g : Flight} {w : Nat} {name : String} {a b : WorkerPhase Nat WorkStage}
    (h : Labour s w name n f act a g b events) : ∀ timed, a ≠ .waiting timed := by
  intro timed
  cases h <;> simp

theorem Move.regular (h : s.Regular) (hm : Move s act s' events) : s'.Regular := by
  have horderly := hm.orderly h.orderly
  have hstay {u : Scheduler} (hu : u.pool = s.pool) (hcl : s.isClosed = true → u.isClosed = true)
      (hk : u.closing.isSome = true → u.isClosed = true) (ho : u.Orderly) : u.Regular :=
    ⟨ho, fun p hp => h.manned p (hu ▸ hp), fun p hp hs => hcl (h.stopping p (hu ▸ hp) hs), hk⟩
  have hpool {u : Scheduler} {p q : Pool Nat WorkStage} (hp : s.pool = some p) (hu : u.pool = some q)
      (hq : q.Manned) (hstop : q.stop = p.stop ∨ s.isClosed = true) (hcl : u.isClosed = s.isClosed)
      (hk : u.closing = s.closing) (ho : u.Orderly) : u.Regular := by
    refine ⟨ho, ?_, ?_, ?_⟩
    · intro r hr; cases hu.symm.trans hr; exact hq
    · intro r hr hs
      cases hu.symm.trans hr
      rw [hcl]
      rcases hstop with hstop | hc
      · exact h.stopping p hp (by simpa [Pool.isStopping, hstop] using hs)
      · exact hc
    · intro hs; rw [hcl]; exact h.closing (hk ▸ hs)
  cases hm with
  | unknown | mismatched | late | ignored | shutAgain => exact h
  | submitted _ _ hp ha =>
      exact hpool hp rfl (ha.manned (h.manned _ hp)) (.inl ha.stop) rfl rfl horderly
  | worked _ hp hw _ hl =>
      have hwait := (h.manned _ hp).not_waiting hw hl.idle
      exact hpool hp rfl ((h.manned _ hp).setPhase hwait) (.inl rfl) rfl rfl horderly
  | warned _ hp hw =>
      have hwait := (h.manned _ hp).not_waiting hw (by simp)
      exact hpool hp rfl ((h.manned _ hp).setPhase hwait) (.inl rfl) rfl rfl horderly
  | idled _ hp hq hr =>
      have hquiet := Pool.Quiet.work (h.manned _ hp) hr hq
      exact hpool hp rfl hquiet.manned (.inl hquiet.stop) rfl rfl horderly
  | halted _ hk _ hp hq | alarmed _ hk _ hp hq =>
      have hc : s.isClosed = true := h.closing (by simp [hk])
      exact hpool hp rfl (Pool.Drained.halting (h.manned _ hp) hq).manned (.inr hc) rfl rfl horderly
  | abandoned _ hp hs hq =>
      have hc : s.isClosed = true := h.stopping _ hp (by simp [Pool.isStopping, hs])
      exact hpool hp rfl (Pool.Drained.halting (h.manned _ hp) hq).manned (.inr hc) rfl rfl horderly
  | shut => exact hstay rfl (fun _ => rfl) (fun _ => rfl) horderly
  | reported _ hk | undone _ hk | gaveUp _ hk =>
      have hc : s.isClosed = true := h.closing (by simp [hk])
      exact hstay rfl id (fun _ => hc) horderly
  | turned | launched | superseded | rearmed | collected | inlined | ranInline | took =>
      exact hstay rfl id h.closing horderly

end Scheduler

end SingleFlight
