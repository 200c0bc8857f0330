import SingleFlight.Proofs.Scheduler.Air
import SingleFlight.Proofs.Scheduler.Calls

/-!
# Schedulers without a pool

Without a pool every flight belongs to the one call that runs it, from its start until its outcome is taken. What
that call owes to a callback is up to nobody else.
-/

namespace SingleFlight

variable [Payloads]

/-- The flight that a call runs or is about to take the outcome of. -/
def Call.runs? : Call → Option Nat
  | .running n _ => some n
  | .taking n => some n
  | _ => none

/-- The flight is at this stage of its only run. -/
def Flight.IsAt (f : Flight) : RunStage → Prop
  | .starting => f.phase = .queued ∧ f.attempts = 0
  | .invoking _ token => f.phase = .running ∧ token.started = 0
  | .settling token _ => f.phase = .running ∧ token.started = 0

/-- A failure of the action starts a callback. -/
def Registration.isHeard (r : Registration) : Bool := r.kind = .get || r.hasSink

/-- The outcome of a flight at this stage starts a callback, or may do so. -/
def Registration.Awaits (r : Registration) (f : Flight) : RunStage → Prop
  | .starting => r.isHeard = true ∧ ∃ copy, f.input.copy = .ok copy
  | .invoking _ _ => r.isHeard = true
  | .settling _ o => (r.deliver o).callsBack = true

theorem Registration.isHeard_of_callsBack {r : Registration} {o : Outcome} (h : (r.deliver o).callsBack = true) :
    r.isHeard = true := by
  cases hk : r.kind with
  | get => simp [isHeard, hk]
  | set | void =>
      cases hs : r.hasSink with
      | true => simp [isHeard, hs]
      | false => cases o <;> simp [deliver, hk, hs, Delivery.callsBack] at h

theorem Registration.callsBack_error {r : Registration} (h : r.isHeard = true) (failure : Failure) :
    (r.deliver (.error failure)).callsBack = true := by
  cases hk : r.kind with
  | get => cases hs : r.hasSink <;> simp [deliver, typed, hk, hs, Delivery.callsBack]
  | set | void =>
      have hs : r.hasSink = true := by simpa [isHeard, hk] using h
      simp [deliver, hk, hs, Delivery.callsBack]

namespace Scheduler

variable {s s' u : Scheduler} {act : SchedulerAct} {c d : Caller} {n m : Nat} {f g : Flight} {x y : Call}
  {rest cs : List Call} {events : List SchedulerEvent}

/-- What a call finds when it gets on. -/
def Ready (s : Scheduler) : Call → Prop
  | .running n stage => ∃ f r, s.flights[n]? = some f ∧ s.registration? f.action = some r ∧ f.signal = {} ∧ f.IsAt stage
  | .taking n => ∃ f r o, s.flights[n]? = some f ∧ s.registration? f.action = some r ∧ f.phase = .completed ∧
      f.output = some o
  | .delivering n _ => ∃ f r, s.flights[n]? = some f ∧ s.registration? f.action = some r
  | .closing => s.closing.isSome = true
  | _ => True

/-- `s.Owes n x`: the call `x` will start a callback with the outcome of the flight `n`, or may do so. -/
def Owes (s : Scheduler) (n : Nat) : Call → Prop
  | .running m stage => m = n ∧ ∃ f r, s.flights[n]? = some f ∧ s.registration? f.action = some r ∧ r.Awaits f stage
  | .taking m => m = n ∧ ∃ f r o, s.flights[n]? = some f ∧ s.registration? f.action = some r ∧ f.output = some o ∧
      (r.deliver o).callsBack = true
  | .delivering m o => m = n ∧ ∃ f r, s.flights[n]? = some f ∧ s.registration? f.action = some r ∧
      (r.deliver o).callsBack = true
  | _ => False

/-- Every call has its flight for itself. -/
structure Sole (s : Scheduler) : Prop where
  ready : ∀ c x, x ∈ s.callsOf c → s.Ready x
  distinct : ∀ c, ((s.callsOf c).filterMap Call.runs?).Nodup
  apart : ∀ c d n, c ≠ d → n ∈ (s.callsOf c).filterMap Call.runs? → n ∉ (s.callsOf d).filterMap Call.runs?

/-- What holds between any two moves of a scheduler without a pool. -/
structure Inline (s : Scheduler) : Prop where
  poolless : s.isSynchronous = true
  orderly : s.Orderly
  numbered : Numbered s.registrations
  grounded : s.inFlight = []
  closing : ∀ k, s.closing = some k → k.stage = .dropping []
  sole : s.Sole

theorem Inline.no_pool {p : Pool Nat WorkStage} (h : s.Inline) (hp : s.pool = some p) : False := by
  have := h.poolless
  simp [isSynchronous, hp] at this

/-! ## Calls that wait -/

/-- What a move leaves to the calls that do not run these flights. -/
structure Spares (s u : Scheduler) (own : Nat → Prop) : Prop where
  calls : u.calls = s.calls
  registrations : u.registrations = s.registrations
  closing : s.closing.isSome = true → u.closing.isSome = true
  flights : ∀ (n : Nat) f, ¬ own n → s.flights[n]? = some f → u.flights[n]? = some f
  actions : ∀ (n : Nat) f, s.flights[n]? = some f → ∃ g, u.flights[n]? = some g ∧ g.action = f.action

theorem Ready.keep {own : Nat → Prop} (h : s.Ready x) (hu : s.Spares u own) (hx : ∀ n, x.runs? = some n → ¬ own n) :
    u.Ready x := by
  have hreg (id : ActionId) : u.registration? id = s.registration? id := by simp [registration?, hu.registrations]
  cases x with
  | running n stage =>
      obtain ⟨f, r, hf, hr, hat⟩ := h
      exact ⟨f, r, hu.flights n f (hx n rfl) hf, (hreg _).trans hr, hat⟩
  | taking n =>
      obtain ⟨f, r, o, hf, hr, hdone⟩ := h
      exact ⟨f, r, o, hu.flights n f (hx n rfl) hf, (hreg _).trans hr, hdone⟩
  | delivering n o =>
      obtain ⟨f, r, hf, hr⟩ := h
      obtain ⟨g, hg, ha⟩ := hu.actions n f hf
      exact ⟨g, r, hg, by rw [ha, hreg, hr]⟩
  | closing => exact hu.closing h
  | _ => trivial

theorem Sole.started (h : s.Sole) (hn : n ∈ (s.callsOf c).filterMap Call.runs?) : ∃ f, s.flights[n]? = some f := by
  obtain ⟨x, hx, hruns⟩ := List.mem_filterMap.mp hn
  have hready := h.ready c x hx
  cases x <;> cases hruns <;> obtain ⟨f, r, hready⟩ := hready
  · exact ⟨f, hready.1⟩
  · obtain ⟨o, hf, -⟩ := hready; exact ⟨f, hf⟩

theorem Sole.around (h : s.Sole) (hcs : s.callsOf c = x :: rest) (hy : y ∈ rest) (hn : y.runs? = some n) :
    x.runs? ≠ some n := by
  intro hx
  have hnodup := h.distinct c
  rw [hcs, ← List.singleton_append (l := rest), List.filterMap_append, List.nodup_append] at hnodup
  exact hnodup.2.2 n (List.mem_filterMap.mpr ⟨x, List.mem_singleton.mpr rfl, hx⟩) n
    (List.mem_filterMap.mpr ⟨y, hy, hn⟩) rfl

theorem Sole.elsewhere (h : s.Sole) (hcs : s.callsOf c = x :: rest) (hd : d ≠ c) (hy : y ∈ s.callsOf d)
    (hn : y.runs? = some n) : x.runs? ≠ some n := by
  intro hx
  exact h.apart d c n hd (List.mem_filterMap.mpr ⟨y, hy, hn⟩) (List.mem_filterMap.mpr ⟨x, hcs ▸ List.mem_cons_self, hx⟩)

theorem Owes.before {own : Nat → Prop} (h : u.Owes n x) (hready : s.Ready x) (hu : s.Spares u own)
    (hx : ∀ n, x.runs? = some n → ¬ own n) : s.Owes n x := by
  have hreg (id : ActionId) : u.registration? id = s.registration? id := by simp [registration?, hu.registrations]
  cases x with
  | running m stage =>
      obtain ⟨rfl, f, r, hf, hr, hw⟩ := h
      obtain ⟨f', -, hf', -⟩ := hready
      cases (hu.flights m f' (hx m rfl) hf').symm.trans hf
      exact ⟨rfl, f, r, hf', (hreg _).symm.trans hr, hw⟩
  | taking m =>
      obtain ⟨rfl, f, r, o, hf, hr, hw⟩ := h
      obtain ⟨f', -, -, hf', -⟩ := hready
      cases (hu.flights m f' (hx m rfl) hf').symm.trans hf
      exact ⟨rfl, f, r, o, hf', (hreg _).symm.trans hr, hw⟩
  | delivering m o =>
      obtain ⟨rfl, f, r, hf, hr, hw⟩ := h
      obtain ⟨f', -, hf', -⟩ := hready
      obtain ⟨g, hg, ha⟩ := hu.actions m f' hf'
      cases hg.symm.trans hf
      exact ⟨rfl, f', r, hf', by rw [← ha, ← hreg, hr], hw⟩
  | _ => exact h

/-! ## Every move -/

/-- `Alone s s'`: what a move does to the calls and their flights. Nothing; or the innermost call of a thread goes
on, with what it runs and with what it owes; or a thread makes a call while the scheduler is open. -/
inductive Alone (s : Scheduler) : Scheduler → Prop
  | same : Alone s s
  | goesOn {u : Scheduler} {c : Caller} {x : Call} {rest : List Call} (front : List Call) :
      s.callsOf c = x :: rest → s.Spares u (fun n => x.runs? = some n) →
      (front.filterMap Call.runs?).Sublist ([x].filterMap Call.runs?) → (∀ y ∈ front, u.Ready y) →
      (∀ n, ∀ y ∈ front, u.Owes n y → s.Owes n x) → Alone s (u.setCalls c (front ++ rest))
  | calls {u : Scheduler} {c : Caller} {x : Call} : s.isClosed = false →
      s.Spares u (fun n => s.flights[n]? = none) → u.Ready x →
      (∀ n, x.runs? = some n → s.flights[n]? = none) → Alone s (u.setCalls c (x :: s.callsOf c))

theorem Spares.callsOf {own : Nat → Prop} (hu : s.Spares u own) (c d : Caller) (cs : List Call) :
    (u.setCalls c cs).callsOf d = if d = c then cs else s.callsOf d := by
  rw [callsOf_setCalls, callsOf_congr hu.calls]

theorem Sole.goesOn {front : List Call} (hs : s.Sole) (hcs : s.callsOf c = x :: rest)
    (hu : s.Spares u fun n => x.runs? = some n)
    (hruns : (front.filterMap Call.runs?).Sublist ([x].filterMap Call.runs?)) (hfront : ∀ y ∈ front, u.Ready y) :
    (u.setCalls c (front ++ rest)).Sole := by
  have hcalls (d : Caller) := hu.callsOf c d (front ++ rest)
  have hsub : ((front ++ rest).filterMap Call.runs?).Sublist ((s.callsOf c).filterMap Call.runs?) := by
    rw [hcs, List.filterMap_append, ← List.singleton_append (l := rest), List.filterMap_append]
    exact hruns.append (.refl _)
  have hold {b : Caller} {n : Nat} (hb : n ∈ ((u.setCalls c (front ++ rest)).callsOf b).filterMap Call.runs?) :
      n ∈ (s.callsOf b).filterMap Call.runs? := by
    rw [hcalls] at hb
    split at hb
    · rename_i hd; subst hd; exact hsub.subset hb
    · exact hb
  refine ⟨fun d y hy => ?_, fun d => ?_, fun d e n hne hn hn' => hs.apart d e n hne (hold hn) (hold hn')⟩
  · show u.Ready y
    rw [hcalls] at hy
    split at hy
    · rename_i hd; subst hd
      rcases List.mem_append.mp hy with hy | hy
      · exact hfront y hy
      · exact (hs.ready d y (hcs ▸ List.mem_cons_of_mem _ hy)).keep hu fun n hn => hs.around hcs hy hn
    · rename_i hd
      exact (hs.ready d y hy).keep hu fun n hn => hs.elsewhere hcs hd hy hn
  · rw [hcalls]
    split
    · exact (hs.distinct c).sublist hsub
    · exact hs.distinct d

theorem Sole.calls (hs : s.Sole) (hu : s.Spares u fun n => s.flights[n]? = none) (hx : u.Ready x)
    (hfresh : ∀ n, x.runs? = some n → s.flights[n]? = none) : (u.setCalls c (x :: s.callsOf c)).Sole := by
  have hcalls (d : Caller) := hu.callsOf c d (x :: s.callsOf c)
  have hunused {d : Caller} {n : Nat} (hn : n ∈ (s.callsOf d).filterMap Call.runs?) : s.flights[n]? ≠ none := by
    obtain ⟨f, hf⟩ := hs.started hn
    simp [hf]
  have hkeep {d : Caller} {y : Call} (hy : y ∈ s.callsOf d) : u.Ready y :=
    (hs.ready d y hy).keep hu fun n hn => hunused (List.mem_filterMap.mpr ⟨y, hy, hn⟩)
  have hmem {d : Caller} {n : Nat} (hn : n ∈ ((u.setCalls c (x :: s.callsOf c)).callsOf d).filterMap Call.runs?) :
      d = c ∧ x.runs? = some n ∨ n ∈ (s.callsOf d).filterMap Call.runs? := by
    rw [hcalls] at hn
    split at hn
    · rename_i hd
      subst hd
      obtain ⟨y, hy, hruns⟩ := List.mem_filterMap.mp hn
      rcases List.mem_cons.mp hy with rfl | hy
      · exact .inl ⟨rfl, hruns⟩
      · exact .inr (List.mem_filterMap.mpr ⟨y, hy, hruns⟩)
    · exact .inr hn
  refine ⟨fun d y hy => ?_, fun d => ?_, fun d e n hne hn hn' => ?_⟩
  · show u.Ready y
    rw [hcalls] at hy
    split at hy
    · rcases List.mem_cons.mp hy with rfl | hy
      · exact hx
      · exact hkeep hy
    · exact hkeep hy
  · rw [hcalls]
    split
    · cases hr : x.runs? with
      | none => rw [List.filterMap_cons_none hr]; exact hs.distinct c
      | some n =>
          rw [List.filterMap_cons_some hr]
          exact List.nodup_cons.mpr ⟨fun hn => hunused hn (hfresh n hr), hs.distinct c⟩
    · exact hs.distinct d
  · rcases hmem hn with ⟨hd, hr⟩ | hold
    · rcases hmem hn' with ⟨he, -⟩ | hold'
      · exact hne (hd.trans he.symm)
      · exact hunused hold' (hfresh n hr)
    · rcases hmem hn' with ⟨-, hr⟩ | hold'
      · exact hunused hold (hfresh n hr)
      · exact hs.apart d e n hne hold hold'

theorem Alone.sole (h : Alone s s') (hs : s.Sole) : s'.Sole := by
  cases h with
  | same => exact hs
  | goesOn front hcs hu hruns hfront => exact hs.goesOn hcs hu hruns hfront
  | calls _ hu hx hfresh => exact hs.calls hu hx hfresh

/-- Once the scheduler is closed, nobody comes to owe anything. -/
theorem Alone.owed (h : Alone s s') (hs : s.Sole) (hclosed : s.isClosed = true) (hy : y ∈ s'.callsOf d)
    (ho : s'.Owes n y) : ∃ z ∈ s.callsOf d, s.Owes n z := by
  cases h with
  | same => exact ⟨y, hy, ho⟩
  | @goesOn u c x rest front hcs hu _ _ howes =>
      rw [hu.callsOf] at hy
      split at hy
      · rename_i hd; subst hd
        rcases List.mem_append.mp hy with hy | hy
        · exact ⟨x, hcs ▸ List.mem_cons_self, howes n y hy ho⟩
        · have hmem : y ∈ s.callsOf d := hcs ▸ List.mem_cons_of_mem _ hy
          exact ⟨y, hmem, Owes.before (u := u) ho (hs.ready d y hmem) hu fun n hn => hs.around hcs hy hn⟩
      · rename_i hd
        exact ⟨y, hy, Owes.before (u := u) ho (hs.ready d y hy) hu fun n hn => hs.elsewhere hcs hd hy hn⟩
  | calls hopen => rw [hclosed] at hopen; cases hopen

theorem Spares.refl (s : Scheduler) (own : Nat → Prop) : s.Spares s own :=
  ⟨rfl, rfl, fun h => h, fun _ _ _ hf => hf, fun _ f hf => ⟨f, hf, rfl⟩⟩

/-- A flight that is set is the one of the call that runs it. -/
theorem Spares.setFlight (hf : s.flights[n]? = some f) (hact : g.action = f.action) :
    s.Spares (s.setFlight n g) fun m => some n = some m := by
  refine ⟨rfl, rfl, fun h => h, fun m e hm he => ?_, fun m e he => ?_⟩
  · rw [flights_setFlight hf, if_neg fun h => hm (by rw [h])]
    exact he
  · rw [flights_setFlight hf]
    split
    · rename_i hm; subst hm; cases hf.symm.trans he; exact ⟨g, rfl, hact⟩
    · exact ⟨e, he, rfl⟩

theorem Alone.pop (hcs : s.callsOf c = x :: rest) : Alone s (s.setCalls c rest) :=
  .goesOn [] hcs (.refl s _) (List.nil_sublist _) (by simp) (by simp)

/-- The innermost call goes on with another one, and its flight with it. -/
theorem Alone.next (hcs : s.callsOf c = x :: rest) (hu : s.Spares u fun n => x.runs? = some n)
    (hruns : y.runs? = none ∨ y.runs? = x.runs?) (hready : u.Ready y) (howes : ∀ n, u.Owes n y → s.Owes n x) :
    Alone s (u.setCalls c (y :: rest)) := by
  refine .goesOn [y] hcs hu ?_ (by simpa using hready) (by simpa using howes)
  rcases hruns with hn | he
  · simp [hn]
  · simp [List.filterMap_cons, he]

/-- A run goes on to a call that is ready, and owes what that owes. -/
theorem Running.alone {stage : RunStage} {next : RunStep} (h : Running s c n f stage g next events)
    (hready : s.Ready (.running n stage)) (hf : s.flights[n]? = some f) (hcs : s.callsOf c = .running n stage :: rest) :
    Alone s ((s.setFlight n g).setCalls c (next.calls n ++ rest)) := by
  obtain ⟨f', r, hf', hr, hsig, hat⟩ := hready
  cases hf.symm.trans hf'
  have hgen : f.signal.generation = 0 := by rw [hsig]
  have hset : (s.setFlight n g).flights[n]? = some g := by rw [flights_setFlight hf, if_pos rfl]
  have hu : s.Spares (s.setFlight n g) fun m => (Call.running n stage).runs? = some m :=
    .setFlight hf h.persists.action
  cases h with
  | refused hc => rw [hat.1] at hc; cases hc
  | exhausted _ hl => rw [hat.2] at hl; simp [Flight.attemptLimit, UInt32.size] at hl
  | uncopied => exact .goesOn [] hcs hu (List.nil_sublist _) (by simp) (by simp)
  | mistyped _ _ hcopy =>
      refine .next hcs hu (.inr rfl) ⟨_, r, hset, hr, hsig, rfl, hgen⟩ ?_
      rintro m ⟨rfl, g', r', hg', hr', hback⟩
      cases hset.symm.trans hg'
      exact ⟨rfl, f, r', hf, hr', Registration.isHeard_of_callsBack hback, _, hcopy⟩
  | called _ _ hcopy =>
      refine .next hcs hu (.inr rfl) ⟨_, r, hset, hr, hsig, rfl, hgen⟩ ?_
      rintro m ⟨rfl, g', r', hg', hr', hheard⟩
      cases hset.symm.trans hg'
      exact ⟨rfl, f, r', hf, hr', hheard, _, hcopy⟩
  | dropped hc => rw [hat.1] at hc; cases hc
  | retried _ _ hne => exact absurd (hgen.trans hat.2.symm) hne
  | stored =>
      refine .next hcs hu (.inr rfl) ⟨_, r, _, hset, hr, rfl, rfl⟩ ?_
      rintro m ⟨rfl, g', r', o', hg', hr', ho', hback⟩
      cases hset.symm.trans hg'
      cases ho'
      exact ⟨rfl, f, r', hf, hr', hback⟩

theorem Turn.alone {cs' : List Call} (h : Turn s act c cs cs' events) (hs : s.Inline) (hcs : s.callsOf c = cs) :
    Alone s (s.setCalls c cs') := by
  cases h with
  | requested _ h | sent _ h | received _ h | landed _ h => cases hs.poolless.symm.trans h
  | found => cases hs.orderly.suited hs.poolless hcs
  | notified => exact .next hcs (.refl s _) (.inl rfl) trivial fun _ h => h.elim
  | @answered c _ n input token f r rest hf hr =>
      obtain ⟨f', r', hready⟩ := hs.sole.ready c (.running n (.invoking input token)) (hcs ▸ List.mem_cons_self)
      refine .next hcs (.refl s _) (.inr rfl) ⟨f', r', hready⟩ ?_
      rintro m ⟨rfl, g, r'', hg, hr'', hback⟩
      exact ⟨rfl, g, r'', hg, hr'', Registration.isHeard_of_callsBack hback⟩
  | _ => exact .pop hcs

theorem Move.alone (hm : Move s act s' events) (h : s.Inline) : Alone s s' := by
  have hsuits {c : Caller} {x : Call} {rest : List Call} (hcs : s.callsOf c = x :: rest) : x.suits true c = true :=
    h.orderly.suited h.poolless hcs
  cases hm with
  | unknown | mismatched | late | ignored | shutAgain => exact .same
  | turned ht => exact ht.alone h rfl
  | launched hcs | superseded hcs | rearmed hcs | submitted hcs | collected hcs => cases hsuits hcs
  | @inlined c id input r _ _ hr _ hopen =>
      have hid : r.id = id := h.numbered id.index r hr
      have hnone : s.flights[s.flights.length]? = none := List.getElem?_eq_none (Nat.le_refl _)
      refine .calls (u := { s with flights := s.flights ++ [Flight.of r input] }) hopen
        ⟨rfl, rfl, fun h => h, fun n f _ hf => ?_, fun n f hf => ?_⟩ ⟨Flight.of r input, r, by simp, ?_, rfl, rfl, rfl⟩ ?_
      · exact flights_concat_some hf _
      · exact ⟨f, flights_concat_some hf _, rfl⟩
      · show s.registration? r.id = some r
        rw [hid]; exact hr
      · rintro n ⟨⟩; exact hnone
  | ranInline hcs hf hr => exact hr.alone (h.sole.ready _ _ (hcs ▸ List.mem_cons_self)) hf hcs
  | @took c _ n f o rest hcs hf hd ho =>
      obtain ⟨f', r, -, hf', hr, -⟩ := h.sole.ready c (.taking n) (hcs ▸ List.mem_cons_self)
      cases hf.symm.trans hf'
      have hset : (s.setFlight n f.landed).flights[n]? = some f.landed := by rw [flights_setFlight hf, if_pos rfl]
      refine .next hcs (.setFlight hf (g := f.landed) rfl) (.inl rfl) ⟨f.landed, r, hset, hr⟩ ?_
      rintro m ⟨rfl, g, r', hg, hr', hback⟩
      cases hset.symm.trans hg
      exact ⟨rfl, f, r', o, hf, hr', ho, hback⟩
  | worked _ hp | warned _ hp | idled _ hp | halted _ _ _ hp | alarmed _ _ _ hp | abandoned _ hp | reported _ _ _ hp
  | undone _ _ _ hp => exact (h.no_pool hp).elim
  | shut _ hopen =>
      refine .calls (x := .closing) hopen ⟨rfl, rfl, fun _ => rfl, fun _ _ _ hf => hf, fun _ f hf => ⟨f, hf, rfl⟩⟩ rfl ?_
      intro n hn; cases hn
  | gaveUp _ hk hs => rw [h.closing _ hk] at hs; simp at hs

theorem Move.inline (hm : Move s act s' events) (h : s.Inline) : s'.Inline where
  poolless := hm.keeps.synchronous.trans h.poolless
  orderly := hm.orderly h.orderly
  numbered := hm.keeps.registrations ▸ h.numbered
  grounded := by
    cases hm with
    | launched hcs | collected hcs => cases h.orderly.suited h.poolless hcs
    | shut => rfl
    | _ => exact h.grounded
  closing k hk := by
    cases hm with
    | shut => cases hk; simp [h.poolless, h.grounded]
    | reported _ _ _ hp | undone _ _ _ hp => exact (h.no_pool hp).elim
    | gaveUp _ hs hstage => rw [h.closing _ hs] at hstage; simp at hstage
    | _ => exact h.closing k hk
  sole := (hm.alone h).sole h.sole

end Scheduler

end SingleFlight
