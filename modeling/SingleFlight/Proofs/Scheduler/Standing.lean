import SingleFlight.Proofs.Scheduler.Frame

/-!
# Where a flight stands

With a pool a flight is in the hands of whoever is about to have it run, about to run it or running it. Its
standing counts them beside its phase. What a move does to the standing of a flight is one of few shifts,
and no shift leads from a sound standing to one that is not.
-/

namespace SingleFlight

/-- The phase of a flight, if it was started, and who has it in hand. -/
structure Standing where
  phase : Option FlightPhase
  /-- How often it is about to be submitted, queued, or taken and not yet entered. -/
  waiting : Nat
  /-- The workers that are about to start an invocation of it. -/
  starting : Nat
  /-- The workers inside of it. -/
  inside : Nat

namespace Standing

/-- A flight is in one pair of hands at most: nobody runs it before it is running, nobody waits to run it
once it is, and nobody has it in hand while its outcome waits for the delivery. -/
def Sound (st : Standing) : Prop :=
  match st.phase with
  | none => st.waiting + st.starting + st.inside = 0
  | some .queued => st.waiting + st.starting ≤ 1 ∧ st.inside = 0
  | some .running => st.waiting = 0 ∧ st.starting + st.inside ≤ 1
  | some .completed => st.waiting + st.starting + st.inside = 0
  | some .closed => st.waiting + st.starting + st.inside ≤ 1

/-- Somebody has the flight in hand as long as it has no outcome, and nobody after its delivery. -/
def Carried (st : Standing) : Prop :=
  match st.phase with
  | some .queued => 1 ≤ st.waiting + st.starting
  | some .running => 1 ≤ st.starting + st.inside
  | _ => True

/-- Nobody has a flight in hand that was delivered. -/
def Spent (st : Standing) : Prop := st.phase = some .closed → st.waiting + st.starting + st.inside = 0

/-- The flight may still do something. -/
def Busy (st : Standing) : Prop :=
  st.phase ≠ some .closed ∧ st.phase ≠ none ∨ 0 < st.waiting + st.starting + st.inside

theorem Sound.le_one {st : Standing} (h : st.Sound) : st.waiting + st.starting + st.inside ≤ 1 := by
  unfold Sound at h
  split at h <;> omega

end Standing

open Standing

/-- What a move does to the standing of a flight, after which the scheduler is closed or not; `refused` says
that the pool refused a task meanwhile. -/
inductive Shift (closed refused : Prop) (st st' : Standing) : Prop
  | kept : st' = st → Shift closed refused st st'
  | launched : st.phase = none → st'.phase = some .queued → st'.waiting = st.waiting + 1 →
      st'.starting = st.starting → st'.inside = st.inside → Shift closed refused st st'
  | refused : refused → st'.phase = st.phase → st.waiting = st'.waiting + 1 →
      st'.starting = st.starting → st'.inside = st.inside → Shift closed refused st st'
  | entered : st'.phase = st.phase → st.waiting = st'.waiting + 1 →
      st'.starting = st.starting + 1 → st'.inside = st.inside → Shift closed refused st st'
  | begun {ph} : st.phase = some ph → ph ≠ .closed → st'.phase = some .running → st'.waiting = st.waiting →
      st.starting = st'.starting + 1 → st'.inside = st.inside + 1 → Shift closed refused st st'
  | declined : st.phase = some .closed → st'.phase = some .closed → st'.waiting = st.waiting →
      st.starting = st'.starting + 1 → st'.inside = st.inside → Shift closed refused st st'
  | retried {ph} : st.phase = some ph → ph ≠ .closed → st'.phase = some ph → st'.waiting = st.waiting →
      st'.starting = st.starting + 1 → st.inside = st'.inside + 1 → Shift closed refused st st'
  | stored {ph} : st.phase = some ph → ph ≠ .closed → st'.phase = some .completed → st'.waiting = st.waiting →
      st'.starting = st.starting → st.inside = st'.inside + 1 → Shift closed refused st st'
  | dropped : st.phase = some .closed → st'.phase = some .closed → st'.waiting = st.waiting →
      st'.starting = st.starting → st.inside = st'.inside + 1 → Shift closed refused st st'
  | rearmed : st.phase = some .completed → st'.phase = some .queued → st'.waiting = st.waiting + 1 →
      st'.starting = st.starting → st'.inside = st.inside → Shift closed refused st st'
  | landed : st.phase = some .completed → st'.phase = some .closed → st'.waiting = st.waiting →
      st'.starting = st.starting → st'.inside = st.inside → Shift closed refused st st'
  /-- The closing of the scheduler takes the flight from the queue or closes it. -/
  | shed : closed → st'.phase = st.phase ∨ st.phase ≠ none ∧ st'.phase = some .closed → st'.waiting ≤ st.waiting →
      st'.starting = st.starting → st'.inside = st.inside → Shift closed refused st st'

namespace Shift

variable {closed refused : Prop} {st st' : Standing}

theorem sound (h : Shift closed refused st st') (hs : st.Sound) : st'.Sound := by
  unfold Sound at hs ⊢
  cases h with
  | kept e => rw [e]; exact hs
  | launched hp hp' | declined hp hp' | dropped hp hp' | rearmed hp hp' | landed hp hp' =>
      simp only [hp] at hs; simp only [hp']; omega
  | refused _ hp | entered hp => rw [hp]; split at hs <;> omega
  | begun hp hne hp' | retried hp hne hp' | stored hp hne hp' =>
      simp only [hp] at hs; simp only [hp']
      split at hs <;> omega
  | shed _ hp =>
      rcases hp with hp | ⟨hne, hp⟩
      · rw [hp]; split at hs <;> omega
      · rw [hp]; split at hs <;> first | contradiction | omega

theorem carried (h : Shift closed refused st st') (hc : ¬ closed) (hr : ¬ refused) (hs : st.Sound)
    (hl : st.Carried) : st'.Carried := by
  unfold Sound at hs
  unfold Carried at hl ⊢
  cases h with
  | kept e => rw [e]; exact hl
  | launched hp hp' | declined hp hp' | dropped hp hp' | rearmed hp hp' | landed hp hp' =>
      simp only [hp'] <;> omega
  | refused hr' => exact absurd hr' hr
  | entered hp => rw [hp]; split <;> simp_all <;> omega
  | begun hp hne hp' | stored hp hne hp' => simp only [hp'] <;> omega
  | retried hp hne hp' => simp only [hp] at hs; simp only [hp']; split <;> simp_all <;> omega
  | shed hc' => exact absurd hc' hc

theorem spent (h : Shift closed refused st st') (hc : ¬ closed) (hs : st.Sound) (hl : st.Spent) : st'.Spent := by
  unfold Sound at hs
  unfold Spent at hl ⊢
  intro hp'
  cases h with
  | kept e => rw [e] at hp' ⊢; exact hl hp'
  | launched _ h' | begun _ _ h' | stored _ _ h' | rearmed _ h' => rw [h'] at hp'; cases hp'
  | refused _ h' | entered h' => have := hl (h' ▸ hp'); omega
  | declined hp | dropped hp => have := hl hp; omega
  | retried _ hne h' => rw [h'] at hp'; cases hp'; exact absurd rfl hne
  | landed hp => simp only [hp] at hs; omega
  | shed hc' => exact absurd hc' hc

/-- As long as a worker is about to start its first invocation, its flight is queued unless it is closed. -/
theorem unstarted (h : Shift closed refused st st') (hs : st.Sound) (hst : 0 < st.starting) (hst' : 0 < st'.starting)
    (hp : st.phase = some .queued ∨ st.phase = some .closed) : st'.phase = some .queued ∨ st'.phase = some .closed := by
  have hone := hs.le_one
  cases h with
  | kept e => rw [e]; exact hp
  | refused | entered | begun | declined | retried | stored | dropped => omega
  | launched h0 | rearmed h0 => rw [h0] at hp; rcases hp with hp | hp <;> cases hp
  | landed _ h' => exact .inr h'
  | shed _ h' =>
      rcases h' with h' | ⟨-, h'⟩
      · rw [h']; exact hp
      · exact .inr h'

theorem busy (h : Shift closed refused st st') (hb : st'.Busy) : st.Busy ∨ st.phase = none ∧ st'.phase = some .queued := by
  unfold Busy at hb ⊢
  cases h with
  | kept e => rw [e] at hb; exact .inl hb
  | launched hp hp' => exact .inr ⟨hp, hp'⟩
  | refused _ hp | entered hp => left; rw [hp] at hb; rcases hb with hb | hb <;> first | exact .inl hb | (right; omega)
  | begun | declined | retried | stored | dropped => left; right; omega
  | rearmed hp | landed hp => left; left; simp [hp]
  | shed _ hp =>
      left
      rcases hb with ⟨h1, h2⟩ | hb
      · rcases hp with hp | ⟨-, hp⟩
        · left; rw [← hp]; exact ⟨h1, h2⟩
        · exact absurd hp h1
      · right; omega

end Shift

theorem PoolEvent.refused_of_refusal {events : List (PoolEvent Nat)} (h : PoolEvent.refusal? events ≠ none) :
    ∃ task error, .refused task error ∈ events := by
  induction events with
  | nil => exact absurd rfl h
  | cons e events ih =>
      cases e with
      | refused task error => exact ⟨task, error, List.mem_cons_self⟩
      | _ => obtain ⟨task, error, hm⟩ := ih h; exact ⟨task, error, List.mem_cons_of_mem _ hm⟩

/-! ## Who has a flight in hand -/

variable [Payloads]

/-- The call is about to submit the flight. -/
@[simp] def Call.submits (n : Nat) : Call → Bool
  | .submitting m => m = n
  | _ => false

/-- The worker is about to start an invocation of the flight. -/
@[simp] def WorkerPhase.isStarting (n : Nat) : WorkerPhase Nat WorkStage → Bool
  | .working m (.running .starting) => m = n
  | _ => false

/-- The worker is inside of an invocation of the flight, or of a run of it that broke down. -/
@[simp] def WorkerPhase.isInside (n : Nat) : WorkerPhase Nat WorkStage → Bool
  | .working m (.running (.invoking _ _)) => m = n
  | .working m (.running (.settling _ _)) => m = n
  | .worked m _ (.failing _) => m = n
  | _ => false

theorem WorkerPhase.isStarting_idle {n : Nat} (a : WorkerPhase Nat WorkStage) (h : a.isEngaged = false) :
    a.isStarting n = false := by
  cases a <;> first | rfl | cases h

theorem WorkerPhase.isInside_idle {n : Nat} (a : WorkerPhase Nat WorkStage) (h : a.isEngaged = false) :
    a.isInside n = false := by
  cases a <;> first | rfl | cases h

theorem Flight.fail_closed {f : Flight} {message : String} (h : f.phase = .closed) : f.fail message = f := by
  simp [Flight.fail, h]

/-- A flight fails unless its outcome is stored or given up. -/
theorem Flight.fail_cases (f : Flight) (message : String) :
    f.phase ≠ .closed ∧ f.fail message = { f with output := some (.error (.panicked message)), phase := .completed } ∨
      f.fail message = f := by
  unfold fail
  cases hp : f.phase with
  | queued | running => exact .inl ⟨by simp, rfl⟩
  | completed | closed => exact .inr rfl

theorem Flight.phase_fail {f : Flight} {message : String} (h : f.phase ≠ .closed) :
    (f.fail message).phase = .completed := by
  unfold Flight.fail
  cases hp : f.phase with
  | closed => exact absurd hp h
  | completed => simp [hp]
  | queued | running => rfl

theorem Flight.phase_unbind (f : Flight) (name : String) : (f.unbind name).phase = f.phase := by
  unfold Flight.unbind
  split <;> rfl

/-- Whether the pool refused a task. -/
def SchedulerEvent.isRefusal : SchedulerEvent → Bool
  | .pool (.refused _ _) => true
  | _ => false

namespace Scheduler

variable {s s' u : Scheduler} {p q : Pool Nat WorkStage} {act : SchedulerAct} {c : Caller} {n m : Nat}
  {events : List SchedulerEvent}

/-- Where a flight stands. -/
def standing (s : Scheduler) (n : Nat) : Standing where
  phase := (s.flights[n]?).map (·.phase)
  waiting := (s.callsOf .owner).countP (Call.submits n) + s.pool.elim 0 (·.pending n)
  starting := s.pool.elim 0 (·.tally (WorkerPhase.isStarting n))
  inside := s.pool.elim 0 (·.tally (WorkerPhase.isInside n))

/-- One of the events says that the pool refused a task. -/
def Refused (events : List SchedulerEvent) : Prop := ∃ e ∈ events, e.isRefusal = true

/-! ## What changes a standing -/

theorem standing_eq (hphase : (u.flights[n]?).map (·.phase) = (s.flights[n]?).map (·.phase))
    (hcalls : (u.callsOf .owner).countP (Call.submits n) = (s.callsOf .owner).countP (Call.submits n))
    (hpool : u.pool = s.pool) : u.standing n = s.standing n := by
  simp only [standing, hphase, hcalls, hpool]

theorem countP_setCalls {P : Call → Bool} {cs : List Call} (d : Caller) (h : cs.countP P = (s.callsOf c).countP P) :
    ((s.setCalls c cs).callsOf d).countP P = (s.callsOf d).countP P := by
  rw [callsOf_setCalls]
  split
  · rename_i e; rw [e, h]
  · rfl

/-- The innermost call goes on, and neither it nor what it goes on with counts. -/
theorem countP_callsOf {P : Call → Bool} {x : Call} {rest cs : List Call} (hcs : s.callsOf c = x :: rest)
    (hx : P x = false) (h : cs.countP P = rest.countP P) : cs.countP P = (s.callsOf c).countP P := by
  rw [hcs, List.countP_cons_of_neg (by rw [hx]; simp), h]

theorem standing_quiet (hp : s.pool = some p) (hq : u.pool = some q) (hquiet : Pool.Quiet p q)
    (hphase : (u.flights[n]?).map (·.phase) = (s.flights[n]?).map (·.phase))
    (hcalls : u.calls = s.calls) : u.standing n = s.standing n := by
  have hstart := hquiet.undisturbed.tally (P := WorkerPhase.isStarting n) fun a ha => a.isStarting_idle ha
  have hin := hquiet.undisturbed.tally (P := WorkerPhase.isInside n) fun a ha => a.isInside_idle ha
  simp only [standing, hp, hq, Option.elim_some, hphase, callsOf_congr hcalls, hquiet.pending, hstart, hin]

theorem standing_drained {refused : Prop} (hp : s.pool = some p) (hq : u.pool = some q) (hd : Pool.Drained p q)
    (hc : s.isClosed = true) (hphase : (u.flights[n]?).map (·.phase) = (s.flights[n]?).map (·.phase))
    (hcalls : u.calls = s.calls) : Shift (s.isClosed = true) refused (s.standing n) (u.standing n) := by
  have hstart := hd.undisturbed.tally (P := WorkerPhase.isStarting n) fun a ha => a.isStarting_idle ha
  have hin := hd.undisturbed.tally (P := WorkerPhase.isInside n) fun a ha => a.isInside_idle ha
  have hpend := hd.pending n
  refine .shed hc (.inl hphase) ?_ ?_ ?_
  · simp only [standing, hp, hq, Option.elim_some, callsOf_congr hcalls]; omega
  · simp only [standing, hp, hq, Option.elim_some, hstart]
  · simp only [standing, hp, hq, Option.elim_some, hin]

theorem Turn.submits {cs cs' : List Call} (h : Turn s act c cs cs' events) (n : Nat) :
    cs'.countP (Call.submits n) = cs.countP (Call.submits n) := by
  cases h <;> simp

/-- With a pool only the owner looks for flights and submits them. -/
theorem Orderly.owner {x : Call} {rest : List Call} (h : s.Orderly) (hsync : s.isSynchronous = false)
    (hcs : s.callsOf c = x :: rest) (hx : x.suits false c = true → c = .owner) : c = .owner :=
  hx (h.suited hsync hcs)

/-! ## Shifts -/

theorem standing_some {f : Flight} (hp : s.pool = some p) (hf : s.flights[n]? = some f) :
    s.standing n = ⟨some f.phase, (s.callsOf .owner).countP (Call.submits n) + p.pending n,
      p.tally (WorkerPhase.isStarting n), p.tally (WorkerPhase.isInside n)⟩ := by
  simp [standing, hp, hf]

theorem Labour.shift {f g : Flight} {w : Nat} {name : String} {a b : WorkerPhase Nat WorkStage}
    {closed refused : Prop} {st st' : Standing} (h : Labour s w name n f act a g b events)
    (hp : st.phase = some f.phase) (hp' : st'.phase = some g.phase)
    (hx : st'.waiting + (decide (a.held? = some n)).toNat = st.waiting + (decide (b.held? = some n)).toNat)
    (hy : st'.starting + (a.isStarting n).toNat = st.starting + (b.isStarting n).toNat)
    (hz : st'.inside + (a.isInside n).toNat = st.inside + (b.isInside n).toNat) :
    Shift closed refused st st' := by
  cases h with
  | bound =>
      simp at hx hy hz
      exact .entered (hp'.trans hp.symm) (by omega) (by omega) (by omega)
  | ran hr =>
      cases hr with
      | refused hc =>
          simp at hx hy hz
          exact .declined (hc ▸ hp) (hc ▸ hp') (by omega) (by omega) (by omega)
      | exhausted hc | uncopied hc | mistyped hc | called hc =>
          simp at hx hy hz
          exact .begun hp hc hp' (by omega) (by omega) (by omega)
      | dropped hc =>
          simp at hx hy hz
          exact .dropped (hc ▸ hp) (hc ▸ hp') (by omega) (by omega) (by omega)
      | retried hc =>
          simp at hx hy hz
          exact .retried hp hc hp' (by omega) (by omega) (by omega)
      | stored hc =>
          simp at hx hy hz
          exact .stored hp hc hp' (by omega) (by omega) (by omega)
  | failed =>
      simp at hx hy hz
      by_cases hc : f.phase = .closed
      · rw [Flight.fail_closed hc] at hp'
        exact .dropped (hc ▸ hp) (hc ▸ hp') (by omega) (by omega) (by omega)
      · rw [Flight.phase_fail hc] at hp'
        exact .stored hp hc hp' (by omega) (by omega) (by omega)
  | unbound =>
      simp at hx hy hz
      rw [Flight.phase_unbind] at hp'
      exact .kept (by cases st; cases st'; simp_all)
  | answered | withheld | returned | posted =>
      simp at hx hy hz
      exact .kept (by cases st; cases st'; simp_all)

theorem Labour.apart {f g : Flight} {w : Nat} {name : String} {a b : WorkerPhase Nat WorkStage}
    (h : Labour s w name m f act a g b events) (hne : n ≠ m) :
    (decide (a.held? = some n)).toNat = (decide (b.held? = some n)).toNat ∧
      (a.isStarting n).toNat = (b.isStarting n).toNat ∧ (a.isInside n).toNat = (b.isInside n).toNat := by
  have hne : m ≠ n := hne.symm
  cases h with
  | ran hr => cases hr <;> simp [hne]
  | _ => simp [hne]

theorem Labour.shift_standing {f g : Flight} {w : Nat} {name : String} {a b : WorkerPhase Nat WorkStage}
    {closed refused : Prop} (h : Labour s w name m f act a g b events) (hman : p.Manned)
    (hp : s.pool = some p) (hw : p.phase? w = some a) (hf : s.flights[m]? = some f)
    (hu : u.pool = some (p.setPhase w b)) (hflights : u.flights = (s.setFlight m g).flights)
    (hcalls : u.calls = s.calls) (n : Nat) : Shift closed refused (s.standing n) (u.standing n) := by
  have hpend := Pool.pending_setPhase (b := b) hman hw n
  have hstart := Pool.tally_setPhase (P := WorkerPhase.isStarting n) (b := b) hman.distinct hw
  have hin := Pool.tally_setPhase (P := WorkerPhase.isInside n) (b := b) hman.distinct hw
  have hflight : u.flights[n]? = if n = m then some g else s.flights[n]? := by
    rw [hflights]; exact flights_setFlight hf g n
  by_cases hn : n = m
  · subst hn
    simp only [↓reduceIte] at hflight
    rw [standing_some hp hf, standing_some hu hflight, callsOf_congr hcalls]
    refine h.shift rfl rfl ?_ hstart hin
    simp only; omega
  · obtain ⟨hpend', hstart', hin'⟩ := h.apart hn
    simp only [hn, ↓reduceIte] at hflight
    refine .kept ?_
    have h1 : (p.setPhase w b).pending n = p.pending n := by omega
    have h2 : (p.setPhase w b).tally (WorkerPhase.isStarting n) = p.tally (WorkerPhase.isStarting n) := by omega
    have h3 : (p.setPhase w b).tally (WorkerPhase.isInside n) = p.tally (WorkerPhase.isInside n) := by omega
    simp only [standing, hu, hp, hflight, callsOf_congr hcalls, Option.elim_some, h1, h2, h3]

/-- A submission that is refused may lose the flight. -/
theorem Admission.shift {refusal : Option IoError} {pooled : List (PoolEvent Nat)} {rest : List Call}
    {closed refused : Prop} (ha : Pool.Admission p m refusal q pooled) (hman : p.Manned) (hp : s.pool = some p)
    (hcs : s.callsOf .owner = .submitting m :: rest)
    (hr : PoolEvent.refusal? pooled ≠ none → refused) (n : Nat) :
    Shift closed refused (s.standing n) (({ s with pool := some q }.setCalls .owner rest).standing n) := by
  have hund := ha.undisturbed hman
  have hstart := hund.tally (P := WorkerPhase.isStarting n) fun a h => a.isStarting_idle h
  have hin := hund.tally (P := WorkerPhase.isInside n) fun a h => a.isInside_idle h
  have hwait : (s.standing n).waiting = (decide (m = n)).toNat + rest.countP (Call.submits n) + p.pending n := by
    simp only [standing, hcs, hp, Option.elim_some, List.countP_cons, Call.submits]
    by_cases e : m = n <;> simp [e] <;> omega
  have hwait' : ({ s with pool := some q }.setCalls .owner rest).standing n
      = { s.standing n with waiting := rest.countP (Call.submits n) + q.pending n } := by
    simp [standing, hp, hstart, hin]
  rw [hwait']
  rcases ha.pending hman n with hq | ⟨hq, href⟩
  · refine .kept ?_
    have : rest.countP (Call.submits n) + q.pending n = (s.standing n).waiting := by omega
    rw [this]
  · by_cases e : m = n
    · exact .refused (hr href) rfl (by simp [hwait, e]; omega) rfl rfl
    · refine .kept ?_
      have : rest.countP (Call.submits n) + q.pending n = (s.standing n).waiting := by
        rw [hwait]; simp [e]; omega
      rw [this]

/-- With a pool every move shifts the standing of every flight. -/
theorem Move.shift (hm : Move s act s' events) (h : s.Regular) (hsync : s.isSynchronous = false) (n : Nat) :
    Shift (s'.isClosed = true) (Refused events) (s.standing n) (s'.standing n) := by
  cases hm with
  | unknown | mismatched | late | ignored | shutAgain => exact .kept rfl
  | turned ht => exact .kept (standing_eq rfl (countP_setCalls _ (ht.submits n)) rfl)
  | @launched c _ _ input r rest hcs =>
      cases h.orderly.owner hsync hcs (by simp [Call.suits])
      by_cases hn : n = s.flights.length
      · subst hn
        refine .launched (by simp [standing]) (by simp [standing, Flight.of]) ?_ rfl rfl
        simp [standing, hcs]; omega
      · refine .kept (standing_eq ?_ (by simp [hcs, eq_comm, hn]) rfl)
        simp [flights_concat, hn]
  | @superseded c _ m input f rest hcs hf =>
      have hphase := map_setFlight Flight.phase (g := f.renewed input) hf rfl n
      exact .kept (standing_eq hphase (countP_setCalls _ (countP_callsOf hcs rfl rfl)) rfl)
  | @rearmed c _ m input f rest hcs hf hd =>
      cases h.orderly.owner hsync hcs (by simp [Call.suits])
      by_cases hn : n = m
      · subst hn
        refine .rearmed (by simp [standing, hf, hd]) ?_ ?_ rfl rfl
        · simp [standing, flights_setFlight hf]
        · simp [standing, hcs]; omega
      · refine .kept (standing_eq ?_ (by simp [hcs, eq_comm, hn]) rfl)
        simp [flights_setFlight hf, hn]
  | submitted hcs hf hp ha =>
      cases h.orderly.owner hsync hcs (by simp [Call.suits])
      refine Admission.shift ha (h.manned _ hp) hp hcs (fun hr => ?_) n
      obtain ⟨task, error, hmem⟩ := PoolEvent.refused_of_refusal hr
      exact ⟨_, List.mem_append_left _ (List.mem_map_of_mem hmem), rfl⟩
  | @collected c _ m f _ rest hcs hf _ hd =>
      by_cases hn : n = m
      · subst hn
        refine .landed (by simp [standing, hf, hd]) ?_ ?_ rfl rfl
        · simp [standing, flights_setFlight hf, Flight.landed]
        · simp only [standing]
          rw [countP_setCalls]
          · rfl
          · exact countP_callsOf hcs rfl (by simp)
      · refine .kept (standing_eq ?_ (countP_setCalls _ (countP_callsOf hcs rfl (by simp))) rfl)
        simp [flights_setFlight hf, hn]
  | inlined _ hs => cases hsync.symm.trans hs
  | ranInline hcs | took hcs => cases h.orderly.suited hsync hcs
  | worked _ hp hw hf hl => refine hl.shift_standing (h.manned _ hp) hp hw hf ?_ ?_ ?_ n <;> rfl
  | warned _ hp hw =>
      have hman := h.manned _ hp
      have hwait := hman.not_waiting hw (by simp)
      exact .kept (standing_quiet hp rfl (.setPhase hman hw rfl rfl rfl hwait) (map_modify (fun _ => by rfl) _ n) rfl)
  | idled _ hp hq hr => exact .kept (standing_quiet hp rfl (.work (h.manned _ hp) hr hq) rfl rfl)
  | shut => exact .kept (standing_eq rfl (countP_setCalls _ (List.countP_cons_of_neg (by simp))) rfl)
  | halted _ hk _ hp hq =>
      exact standing_drained hp rfl (.halting (h.manned _ hp) hq) (h.closing (by simp [hk])) rfl rfl
  | alarmed _ hk _ hp hq =>
      exact standing_drained hp rfl (.halting (h.manned _ hp) hq) (h.closing (by simp [hk]))
        (map_modify (fun _ => by rfl) _ n) rfl
  | abandoned _ hp hs hq =>
      exact standing_drained hp rfl (.halting (h.manned _ hp) hq)
        (h.stopping _ hp (by simp [Pool.isStopping, hs])) rfl rfl
  | reported | undone => exact .kept rfl
  | @gaveUp _ _ _ k m more stage _ hk =>
      refine .shed (h.closing (by simp [hk])) ?_ (Nat.le_refl _) rfl rfl
      simp only [standing, List.getElem?_modify]
      cases s.flights[n]? with
      | none => simp
      | some f => by_cases e : m = n <;> simp [e, Flight.close]

end Scheduler

end SingleFlight
