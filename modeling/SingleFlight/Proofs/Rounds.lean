import SingleFlight.Proofs.Sessions

/-!
# Rounds

With a pool, the owner requests an action when the scheduler is at rest and leaves it in peace until it is at rest
again. In such a round only the flight of this request is open, and from where it is one can tell what will be seen
of it.
-/

namespace SingleFlight

open Scheduler

variable [Payloads]

/-- What the host will see depends on the call. -/
def Call.announces : Call → Bool
  | .applying _ _ => true
  | .delivering _ _ => true
  | _ => false

/-- What the worker's flight is heading for. -/
def WorkerPhase.prospect : WorkerPhase Nat WorkStage → Prospect
  | .working _ (.running (.invoking _ _)) => .inside
  | .working _ (.running (.settling _ o)) => .ended o
  | _ => .ahead

/-- What counts of a flight in a round. -/
def Flight.face (f : Flight) : ActionId × FlightPhase × Payload × Option Outcome := (f.action, f.phase, f.input, f.output)

theorem Flight.face_unbind (f : Flight) (name : String) : (f.unbind name).face = f.face := by
  unfold unbind; split <;> rfl

namespace Scheduler

variable {s s' : Scheduler} {p q : Pool Nat WorkStage} {act : SchedulerAct} {n m w v : Nat} {id : ActionId} {f g : Flight}
  {r : Registration} {input : Payload} {x : Prospect} {a b : WorkerPhase Nat WorkStage} {rest : List Call} {o : Outcome}
  {events : List SchedulerEvent}

/-- The calls of the owner on which it depends what will be seen. -/
def announced (s : Scheduler) : List Call := (s.callsOf .owner).filter Call.announces

/-- `Place s n r input x`: where the request of the action `r` is, with its flight `n`. -/
inductive Place (s : Scheduler) (n : Nat) (r : Registration) (input : Payload) : Prospect → Prop
  | requested : s.announced = [.applying r.id input] → n = s.flights.length → Place s n r input .ahead
  | queued {f : Flight} : s.announced = [] → s.flights[n]? = some f → f.action = r.id → f.phase = .queued → f.input = input →
      Place s n r input .ahead
  | running {f : Flight} {x : Prospect} : s.announced = [] → s.flights[n]? = some f → f.action = r.id → f.phase = .running →
      f.input = input →
      (∀ p w a, s.pool = some p → p.phase? w = some a → a.isInside n = true → a.prospect = x) → Place s n r input x
  | completed {f : Flight} {o : Outcome} : s.announced = [] → s.flights[n]? = some f → f.action = r.id →
      f.phase = .completed →
      f.output = some o → Place s n r input (.ended o)
  | taken {f : Flight} {o : Outcome} : s.announced = [.delivering n o] → s.flights[n]? = some f → f.action = r.id →
      f.phase = .closed → Place s n r input (.ended o)
  | told : s.announced = [] → (∀ f, s.flights[n]? = some f → f.phase = .closed) → Place s n r input .told

/-- The only request that is being served. -/
structure Serves (s : Scheduler) (n : Nat) (r : Registration) (input : Payload) (x : Prospect) : Prop where
  alone : ∀ (m : Nat) (f : Flight), s.flights[m]? = some f → f.phase ≠ .closed → m = n
  registered : x ≠ .told → s.registration? r.id = some r
  place : s.Place n r input x

/-! ## Reading off the prospect -/

theorem Place.of_applying (h : s.Place n r input x) {given : Payload} (hcs : s.callsOf .owner = .applying id given :: rest) :
    x = .ahead ∧ id = r.id ∧ given = input ∧ n = s.flights.length ∧ rest.filter Call.announces = [] := by
  have hsay : s.announced = .applying id given :: rest.filter Call.announces := by rw [announced, hcs]; rfl
  cases h with
  | requested h hn =>
      obtain ⟨e, hrest⟩ := List.cons.inj (h.symm.trans hsay)
      cases e
      exact ⟨rfl, rfl, rfl, hn, hrest.symm⟩
  | queued h | running h | completed h | taken h | told h => cases h.symm.trans hsay

theorem Place.of_queued (h : s.Place n r input x) (hf : s.flights[n]? = some f) (hphase : f.phase = .queued) :
    x = .ahead ∧ s.announced = [] ∧ f.action = r.id ∧ f.input = input := by
  cases h with
  | requested _ hn => simp [hn] at hf
  | queued hsay hf' hact _ hin => cases hf.symm.trans hf'; exact ⟨rfl, hsay, hact, hin⟩
  | running _ hf' _ hphase' | completed _ hf' _ hphase' | taken _ hf' _ hphase' =>
      cases hf.symm.trans hf'; cases hphase.symm.trans hphase'
  | told _ hclosed => cases hphase.symm.trans (hclosed f hf)

theorem Place.of_running (h : s.Place n r input x) (hf : s.flights[n]? = some f) (hphase : f.phase = .running) :
    s.announced = [] ∧ f.action = r.id ∧ f.input = input ∧
      ∀ p w a, s.pool = some p → p.phase? w = some a → a.isInside n = true → a.prospect = x := by
  cases h with
  | requested _ hn => simp [hn] at hf
  | running hsay hf' hact _ hin hx => cases hf.symm.trans hf'; exact ⟨hsay, hact, hin, hx⟩
  | queued _ hf' _ hphase' | completed _ hf' _ hphase' | taken _ hf' _ hphase' =>
      cases hf.symm.trans hf'; cases hphase.symm.trans hphase'
  | told _ hclosed => cases hphase.symm.trans (hclosed f hf)

theorem Place.of_completed (h : s.Place n r input x) (hf : s.flights[n]? = some f) (hphase : f.phase = .completed)
    (hout : f.output = some o) : x = .ended o ∧ s.announced = [] ∧ f.action = r.id := by
  cases h with
  | requested _ hn => simp [hn] at hf
  | completed hsay hf' hact _ hout' =>
      cases hf.symm.trans hf'; cases hout.symm.trans hout'; exact ⟨rfl, hsay, hact⟩
  | queued _ hf' _ hphase' | running _ hf' _ hphase' | taken _ hf' _ hphase' =>
      cases hf.symm.trans hf'; cases hphase.symm.trans hphase'
  | told _ hclosed => cases hphase.symm.trans (hclosed f hf)

theorem Place.of_delivering (h : s.Place n r input x) (hcs : s.callsOf .owner = .delivering m o :: rest) :
    x = .ended o ∧ m = n ∧ rest.filter Call.announces = [] ∧
      ∃ f, s.flights[n]? = some f ∧ f.action = r.id ∧ f.phase = .closed := by
  have hsay : s.announced = .delivering m o :: rest.filter Call.announces := by rw [announced, hcs]; rfl
  cases h with
  | taken h hf hact hphase =>
      obtain ⟨e, hrest⟩ := List.cons.inj (h.symm.trans hsay)
      cases e
      exact ⟨rfl, rfl, hrest.symm, _, hf, hact, hphase⟩
  | requested h | queued h | running h | completed h | told h => cases h.symm.trans hsay

/-! ## What leaves the request where it is -/

theorem announced_setCalls (s : Scheduler) (cs : List Call) :
    (s.setCalls .owner cs).announced = cs.filter Call.announces := by
  rw [announced, callsOf_setCalls_self]

/-- A move that shows nothing and changes neither the face of a flight nor the workers inside of it. -/
theorem Serves.keep (h : s.Serves n r input x) (hregs : s'.registrations = s.registrations)
    (hsay : s'.announced = s.announced)
    (hface : ∀ m : Nat, (s'.flights[m]?).map Flight.face = (s.flights[m]?).map Flight.face)
    (hpool : ∀ q, s'.pool = some q → ∃ p, s.pool = some p ∧
      ∀ w a, q.phase? w = some a → a.isInside n = true → p.phase? w = some a) :
    s'.Serves n r input x := by
  have hbefore {m : Nat} {g : Flight} (hg : s'.flights[m]? = some g) :
      ∃ f, s.flights[m]? = some f ∧ f.face = g.face := by
    have := hface m
    rw [hg, Option.map_some, eq_comm, Option.map_eq_some_iff] at this
    exact this
  have hafter {f : Flight} (hf : s.flights[n]? = some f) :
      ∃ g, s'.flights[n]? = some g ∧ g.action = f.action ∧ g.phase = f.phase ∧ g.input = f.input ∧ g.output = f.output := by
    have := hface n
    rw [hf, Option.map_some, Option.map_eq_some_iff] at this
    obtain ⟨g, hg, e⟩ := this
    simp only [Flight.face, Prod.mk.injEq] at e
    exact ⟨g, hg, e⟩
  -- each place speaks of the faces of flights only, except for the numbers of the flights and the workers inside
  refine ⟨fun m g hg hopened => ?_, fun hx => by rw [registration?, hregs]; exact h.registered hx, ?_⟩
  · obtain ⟨f, hf, e⟩ := hbefore hg
    simp only [Flight.face, Prod.mk.injEq] at e
    exact h.alone m f hf (e.2.1 ▸ hopened)
  · cases h.place with
    | requested hsaid hn =>
        have hmap : s'.flights.map Flight.face = s.flights.map Flight.face :=
          List.ext_getElem? fun m => by simpa using hface m
        exact .requested (hsay.trans hsaid) (hn.trans (by simpa using congrArg List.length hmap.symm))
    | queued hsaid hf hact hphase hin =>
        obtain ⟨g, hg, ha, hp, hi, -⟩ := hafter hf
        exact .queued (hsay.trans hsaid) hg (ha.trans hact) (hp.trans hphase) (hi.trans hin)
    | running hsaid hf hact hphase hin hx =>
        obtain ⟨g, hg, ha, hp, hi, -⟩ := hafter hf
        refine .running (hsay.trans hsaid) hg (ha.trans hact) (hp.trans hphase) (hi.trans hin) fun q w a hq hw hin => ?_
        obtain ⟨p, hp, hkept⟩ := hpool q hq
        exact hx p w a hp (hkept w a hw hin) hin
    | completed hsaid hf hact hphase hout =>
        obtain ⟨g, hg, ha, hp, -, ho⟩ := hafter hf
        exact .completed (hsay.trans hsaid) hg (ha.trans hact) (hp.trans hphase) (ho.trans hout)
    | taken hsaid hf hact hphase =>
        obtain ⟨g, hg, ha, hp, -, -⟩ := hafter hf
        exact .taken (hsay.trans hsaid) hg (ha.trans hact) (hp.trans hphase)
    | told hsaid hclosed =>
        refine .told (hsay.trans hsaid) fun g hg => ?_
        obtain ⟨f, hf, e⟩ := hbefore hg
        simp only [Flight.face, Prod.mk.injEq] at e
        exact e.2.1 ▸ hclosed f hf

theorem Sane.inside_unique (h : s.Sane) (hp : s.pool = some p) (hw : p.phase? w = some a) (ha : a.isInside n = true)
    (hv : p.phase? v = some b) (hb : b.isInside n = true) : w = v := by
  refine Classical.byContradiction fun hne => ?_
  have htwo := Pool.two_le_tally (P := WorkerPhase.isInside n) hw hv hne ha hb
  have hone := (h.sound n).le_one
  simp only [standing, hp, Option.elim_some] at hone
  omega

/-! ## Workers -/

theorem Toil.serves {name : String} {answers : Answers} {seen : List Sight} (ht : Toil s w name m f act a g b events)
    (h : s.Serves n r input x) (hs : s.Sane) (hopen : s.isClosed = false) (hcs : s.callsOf (.worker w) = [])
    (hp : s.pool = some p) (hw : p.phase? w = some a) (hf : s.flights[m]? = some f) (hsignal : f.signal = {})
    (hobeys : s.Obeys answers seen act) (hs' : s' = { s.setFlight m g with pool := some (p.setPhase w b) }) :
    ∃ y, s'.Serves n r input y ∧ Prospect.Next answers r input seen x (s.sights act s' events) y := by
  have hflights (k : Nat) : s'.flights[k]? = if k = m then some g else s.flights[k]? := by
    rw [hs']; exact flights_setFlight hf g k
  have hpool {q : Pool Nat WorkStage} (hq : s'.pool = some q) : q = p.setPhase w b := by
    rw [hs'] at hq; exact (Option.some.inj hq).symm
  have hregistered (hx : x ≠ .told) : s'.registration? r.id = some r := by rw [hs']; exact h.registered hx
  have hsay : s'.announced = s.announced := by rw [hs']; rfl
  have halone (hopened : f.phase ≠ .closed) (k : Nat) (f' : Flight) (hf' : s'.flights[k]? = some f')
      (hopened' : f'.phase ≠ .closed) : k = n := by
    rw [hflights] at hf'
    split at hf'
    · rename_i e; exact e.trans (h.alone m f hf hopened)
    · exact h.alone k f' hf' hopened'
  have hkeep (hface : g.face = f.face) (hb : b.isInside n = false) : s'.Serves n r input x := by
    refine h.keep (by rw [hs']; rfl) hsay (fun k => by rw [hs']; exact map_setFlight Flight.face hf hface k) ?_
    intro q hq
    refine ⟨p, hp, fun v c hv hc => ?_⟩
    rw [hpool hq] at hv
    rcases Pool.phase?_setPhase_cases hv with ⟨-, rfl⟩ | ⟨-, hv⟩
    · cases hb.symm.trans hc
    · exact hv
  -- only the call, the end of the function and the store take the request on; the hooks around them show nothing
  cases ht with
  | bound => exact ⟨x, hkeep rfl rfl, .still⟩
  | unbound => exact ⟨x, hkeep (f.face_unbind name) rfl, .still⟩
  | returned | posted => exact ⟨x, hkeep rfl rfl, .still⟩
  | called hphase =>
      have hopened : f.phase ≠ .closed := by simp [hphase]
      obtain rfl := h.alone m f hf hopened
      obtain ⟨rfl, hsaid, hact, hin⟩ := h.place.of_queued hf hphase
      have hg : s'.flights[m]? = some f.begun := by simp [hflights]
      refine ⟨.inside, ⟨halone hopened, fun _ => hregistered (by simp), .running (hsay.trans hsaid) hg hact rfl hin ?_⟩, ?_⟩
      · intro q v c hq hv hc
        rw [hpool hq] at hv
        rcases Pool.phase?_setPhase_cases hv with ⟨-, rfl⟩ | ⟨-, hv⟩
        · rfl
        · cases hphase.symm.trans ((hs.phase_in_hand hopen hf).2 (inside_pos hp hv hc))
      · have hseen : s.sights (.advance (.worker w) ‹_›) s' [.called (.worker w) m f.action (Erased.copied f.input) ⟨0⟩]
            = [.called r.id (Erased.copied input) 0 none] := by
          simp [sights, ending?, sight?, hg, Flight.begun, hsignal, hact, hin, Token.check, Token.isSuperseded]
        rw [hseen]; exact .called
  | @answered answer r' hphase hr =>
      have hopened : f.phase ≠ .closed := by simp [hphase]
      obtain rfl := h.alone m f hf hopened
      obtain ⟨hsaid, hact, hin, hx⟩ := h.place.of_running hf hphase
      obtain rfl : x = .inside := (hx p w _ hp hw (by simp)).symm
      obtain rfl : r' = r := Option.some.inj (hr.symm.trans (hact ▸ h.registered (by simp)))
      have hg : s'.flights[m]? = some f := by simp [hflights]
      have hinside : s.inside? (.worker w) = some (m, Erased.copied f.input, ⟨0⟩) := by
        simp [inside?, hcs, hp, hw]
      obtain ⟨_, _, _, f', hinside', hf', hanswer⟩ := hobeys
      cases hinside.symm.trans hinside'
      cases hf.symm.trans hf'
      rw [hact, hin] at hanswer
      refine ⟨.ended (Flight.caught (r'.outcome answer)),
        ⟨halone hopened, fun _ => hregistered (by simp), .running (hsay.trans hsaid) hg hact hphase hin ?_⟩, ?_⟩
      · intro q v c hq hv hc
        rw [hpool hq] at hv
        rcases Pool.phase?_setPhase_cases hv with ⟨-, rfl⟩ | ⟨hne, hv⟩
        · rfl
        · exact absurd (hs.inside_unique hp hv hc hw (by simp)) hne
      · have hseen : s.sights (.reply (.worker w) answer) s' [] = [.ended r'.id answer none] := by
          simp [sights, ending?, hinside, hf, hsignal, hact, Token.check, Token.isSuperseded]
        rw [hseen]; exact .answered hanswer
  | @stored _ o hphase =>
      have hopened : f.phase ≠ .closed := by simp [hphase]
      obtain rfl := h.alone m f hf hopened
      obtain ⟨hsaid, hact, -, hx⟩ := h.place.of_running hf hphase
      obtain rfl : x = .ended o := (hx p w _ hp hw (by simp)).symm
      have hg : s'.flights[m]? = some { f with output := some o, phase := .completed } := by simp [hflights]
      have hplace : s'.Place m r input (.ended o) := .completed (hsay.trans hsaid) hg hact rfl rfl
      exact ⟨.ended o, ⟨halone hopened, fun _ => hregistered (by simp), hplace⟩, .still⟩

end Scheduler

namespace System

variable {answers : Answers} {sys sys' : System} {act : SchedulerAct} {history : List Moment} {seen : List Sight}
  {events : List SchedulerEvent} {n : Nat} {r : Registration} {input : Payload} {x : Prospect}

/-! ## Moves -/

theorem gentle_of_obeys (h : sys.scheduler.Obeys answers seen act) : sys.scheduler.Gentle act := by
  cases act with
  | apply | close => exact h.elim
  | advance => exact h
  | _ => trivial

/-- Every move takes the request on or leaves it where it is. -/
theorem Steady.serves (hst : Steady history sys) (h : sys.scheduler.Serves n r input x)
    (hobeys : sys.scheduler.Obeys answers seen act) (hroom : sys.scheduler.Roomy)
    (hloop : ∀ job, act = .run job → job ∈ sys.loop.queue) (hm : Move sys.scheduler act sys'.scheduler events) :
    ∃ y, sys'.scheduler.Serves n r input y ∧
      Prospect.Next answers r input seen x (sys.scheduler.sights act sys'.scheduler events) y := by
  have hs := hst.sane
  have hgentle := gentle_of_obeys hobeys
  have hrefused := hst.not_refused hgentle hm hroom
  -- the calls of the owner get on, and what it announces stays the same
  have hcalls {cs : List Call} (hsay : cs.filter Call.announces = sys.scheduler.announced) :
      (sys.scheduler.setCalls .owner cs).Serves n r input x :=
    h.keep rfl ((announced_setCalls _ _).trans hsay) (fun _ => rfl) fun q hq => ⟨q, hq, fun _ _ hw _ => hw⟩
  have hinside {p q : Pool Nat WorkStage} (hkept : Pool.Undisturbed p q) (w : Nat) (a : WorkerPhase Nat WorkStage)
      (hw : q.phase? w = some a) (ha : a.isInside n = true) : p.phase? w = some a := by
    refine (hkept.phase (Bool.not_eq_false _ ▸ fun hidle => ?_)).mp hw
    cases (WorkerPhase.isInside_idle a hidle).symm.trans ha
  have hdone {y : Call} {rest : List Call} (hcs : sys.scheduler.callsOf .owner = y :: rest) (hy : y.announces = false) :
      rest.filter Call.announces = sys.scheduler.announced := by
    rw [announced, hcs, List.filter_cons, if_neg (by simp [hy])]
  generalize sys'.scheduler = s' at hm ⊢
  cases hm with
  | unknown | mismatched | late | inlined | shutAgain | shut => exact hobeys.elim
  | ignored _ hc => cases hc.symm.trans hst.isOpen
  | @turned _ c cs _ ht =>
      generalize hcs : sys.scheduler.callsOf c = before at ht
      cases ht with
      | requested | sent => exact hobeys.elim
      | received =>
          obtain ⟨_, _, e, -⟩ := hst.jobs _ (hloop _ rfl)
          cases e
      | landed => exact ⟨x, hcalls (by rw [announced, hcs]; rfl), .still⟩
      | lapsed hc => cases hc.symm.trans hst.isOpen
      | @found _ _ id given _ _ _ hsome =>
          obtain rfl := (hst.caller hcs).1
          cases (hst.fresh id given (hcs ▸ List.mem_cons_self)).symm.trans hsome
      | unknown _ _ hnone =>
          obtain rfl := (hst.caller hcs).1
          obtain ⟨rfl, rfl, -⟩ := h.place.of_applying hcs
          cases hnone.symm.trans (h.registered (by simp))
      | posted | incomparable | coalesced | rejected | missed | answered | closed => cases (hst.caller hcs).2
      | stale | awaiting | left =>
          obtain rfl := (hst.caller hcs).1
          exact ⟨x, hcalls (hdone hcs rfl), .still⟩
      | panicked => cases hobeys
      | notified hf hr hd | settled hf hr hd =>
          obtain rfl := (hst.caller hcs).1
          obtain ⟨rfl, rfl, hrest, f, hf', hact, hphase⟩ := h.place.of_delivering hcs
          cases hf.symm.trans hf'
          cases hr.symm.trans (hact ▸ h.registered (by simp))
          subst hd
          refine ⟨.told, ⟨h.alone, fun hx => absurd rfl hx, .told ((announced_setCalls _ _).trans hrest) fun g hg => ?_⟩,
            .heard⟩
          cases hf.symm.trans hg
          exact hphase
  | launched hcs _ _ hr =>
      obtain rfl := (hst.caller hcs).1
      obtain ⟨rfl, rfl, rfl, rfl, hrest⟩ := h.place.of_applying hcs
      cases hr.symm.trans (h.registered (by simp))
      refine ⟨.ahead, ⟨fun m f hf hopened => ?_, h.registered,
        .queued (f := Flight.of r _) ((announced_setCalls _ _).trans hrest) (by simp) rfl rfl rfl⟩, .still⟩
      simp only [flights_setCalls, flights_concat] at hf
      split at hf
      · assumption
      · exact h.alone m f hf hopened
  | superseded hcs | rearmed hcs => cases (hst.caller hcs).2
  | @submitted c _ m f p q pooled rest hcs hf hp ha =>
      obtain rfl := (hst.caller hcs).1
      have hnone := refusal?_eq_none hrefused
      refine ⟨x, h.keep rfl ((announced_setCalls _ _).trans (hdone hcs rfl)) (fun _ => rfl) fun q' hq => ?_, ?_⟩
      · cases hq
        exact ⟨p, hp, hinside (ha.undisturbed (hs.regular.manned p hp))⟩
      · rw [hnone, sights_append, sights_pooled rfl]; exact .still
  | @collected _ _ m f o rest hcs hf _ hphase hout =>
      obtain rfl := (hst.caller hcs).1
      obtain rfl := h.alone m f hf (by simp [hphase])
      obtain ⟨rfl, hsaid, hact⟩ := h.place.of_completed hf hphase hout
      have hrest := (hdone hcs rfl).trans hsaid
      refine ⟨.ended o, ⟨fun k g hg hopened => ?_, fun _ => h.registered (by simp),
        .taken (f := f.landed) ?_ ?_ hact rfl⟩, .still⟩
      · simp only [flights_setCalls, flights_setFlight hf] at hg
        split at hg
        · assumption
        · exact h.alone k g hg hopened
      · rw [announced_setCalls, List.filter_cons, hrest]; rfl
      · simp [flights_setFlight hf]
  | ranInline hcs | took hcs => cases (hst.caller hcs).2
  | worked hcs hp hw hf hl =>
      have hfed := (hst.reached.fed hst.pooled hst.copyable.usable).1
      exact (hl.toil hs hst.single hst.isOpen hfed hp hw hf).serves h hs hst.isOpen hcs hp hw hf
        (hst.single.signal _ _ hf) hobeys rfl
  | warned _ hp _ hstop => cases (hst.not_stopping hp).symm.trans hstop
  | idled hact hp hw hroutine _ =>
      have hman := hs.regular.manned _ hp
      refine ⟨x, h.keep rfl rfl (fun _ => rfl) fun q' hq => ?_, ?_⟩
      · cases hq
        exact ⟨_, hp, hinside (Pool.Quiet.work hman hroutine hw).undisturbed⟩
      · rw [sights_pooled (by rcases hact with rfl | ⟨-, _, rfl⟩ <;> rfl)]; exact .still
  | halted _ hk | alarmed _ hk | reported _ hk | undone _ hk | gaveUp _ hk => exact absurd hk hst.not_closing
  | abandoned hcs => cases (hst.caller hcs).2

/-! ## Whole rounds -/

/-- A scheduler that is left in peace serves a request, and no other one. -/
structure Round (history : List Moment) (sys : System) (n : Nat) (r : Registration) (input : Payload) (x : Prospect) :
    Prop where
  steady : Steady history sys
  serves : sys.scheduler.Serves n r input x

theorem Round.queue_empty (h : Round history sys n r input x) {p : Pool Nat WorkStage} {m : Nat} {rest : List Call}
    (hp : sys.scheduler.pool = some p) (hcs : sys.scheduler.callsOf .owner = .submitting m :: rest) : p.queue = [] := by
  have hs := h.steady.sane
  have hwaiting := waiting_submitting hp hcs
  -- a queued flight would be the one that is submitted, which waits once only
  have hsame {k : Nat} (hk : k ∈ m :: p.queue) : k = n := by
    obtain ⟨f, hf⟩ := hwaiting.started hs hk
    have hcount := hwaiting k
    have hpos := List.count_pos_iff.mpr hk
    exact h.serves.alone k f hf (hs.in_hand h.steady.isOpen hf (by omega))
  cases hqueue : p.queue with
  | nil => rfl
  | cons k more =>
      obtain rfl := hsame List.mem_cons_self
      obtain rfl := hsame (k := k) (by rw [hqueue]; exact List.mem_cons_of_mem _ List.mem_cons_self)
      have htwice := hwaiting k
      have hone := (hs.sound k).le_one
      rw [hqueue, List.count_cons_self, List.count_cons_self] at htwice
      omega

theorem Round.roomy (h : Round history sys n r input x) : sys.scheduler.Roomy := by
  intro p m rest hp hcs
  rw [h.queue_empty hp hcs]
  exact h.steady.reached.capacity_pos hp

/-- A step of a round shows the next thing of its request, or nothing. -/
theorem Round.step (h : Round history sys n r input x) (hobeys : sys.scheduler.Obeys answers seen act)
    (hstep : sys.step (.thread act) = some (sys', events)) :
    ∃ y, Round ({ act := .thread act, events } :: history) sys' n r input y ∧
      Prospect.Next answers r input seen x (sys.scheduler.sights act sys'.scheduler events) y := by
  have hsteady := h.steady.step (gentle_of_obeys hobeys) h.roomy hstep
  obtain ⟨loop, hyield, hm, -⟩ := step_thread_cases hstep
  obtain ⟨y, hy, hnext⟩ := h.steady.serves h.serves hobeys h.roomy (OwnerLoop.mem_of_yield hyield) hm
  exact ⟨y, ⟨hsteady, hy⟩, hnext⟩

theorem Round.told (h : Round history sys n r input x) (hq : sys.Quiescent) : x = .told := by
  have hsilent : sys.scheduler.announced = [] := by rw [announced, hq.calls]; rfl
  cases h.serves.place with
  | requested hsaid | taken hsaid => cases hsilent.symm.trans hsaid
  | queued _ hf _ hphase | running _ hf _ hphase | completed _ hf _ hphase =>
      cases (h.steady.landed hq hf).symm.trans hphase
  | told => rfl

/-! ## Coming to rest -/

theorem obeys_of_plain (hact : act.isPlain = true) : sys.scheduler.Obeys answers seen act := by
  cases act with
  | apply | close | reply => cases hact
  | advance _ refusal => exact Option.isNone_iff_eq_none.mp hact
  | leave _ panic => exact Option.isNone_iff_eq_none.mp hact
  | run | expire | abandon => trivial

theorem MayEnd.inside {c : Caller} (h : sys.MayEnd c) :
    ∃ n input token f, sys.scheduler.inside? c = some (n, input, token) ∧ sys.scheduler.flights[n]? = some f := by
  obtain ⟨s', events, hstep⟩ := h (.value none)
  simp only [Scheduler.step, reply] at hstep
  split at hstep
  · rename_i n input token rest hcs
    obtain ⟨stage, hstage, -⟩ := Option.map_eq_some_iff.mp hstep
    obtain ⟨f, hf, -⟩ := Option.bind_eq_some_iff.mp hstage
    exact ⟨n, input, token, f, by simp [inside?, hcs], hf⟩
  · rename_i w hcs
    split at hstep
    · rename_i n input token hw
      obtain ⟨stage, hstage, -⟩ := Option.bind_eq_some_iff.mp hstep
      obtain ⟨f, hf, -⟩ := Option.bind_eq_some_iff.mp hstage
      exact ⟨n, input, token, f, by simp [inside?, hcs, hw], hf⟩
    · cases hstep
  · cases hstep

theorem MayEnd.reply {c : Caller} (h : sys.MayEnd c) (answers : Answers) (seen : List Sight) :
    ∃ answer sys' events, sys.scheduler.Obeys answers seen (.reply c answer) ∧
      sys.step (.thread (.reply c answer)) = some (sys', events) := by
  obtain ⟨n, input, token, f, hinside, hf⟩ := h.inside
  obtain ⟨s', events, hstep⟩ := h (answers seen f.action input)
  obtain ⟨sys', hsys, -⟩ := step_thread (by simp) hstep
  exact ⟨_, sys', events, ⟨n, input, token, f, hinside, hf, rfl⟩, hsys⟩

/-- A round comes to rest, from wherever it is. -/
theorem Round.rests (answers : Answers) (h : Round history sys n r input x) (seen : List Sight) :
    ∃ sys' seen', Follows answers sys seen sys' seen' ∧ sys'.Quiescent := by
  let Q (sys : System) : Prop := ∃ history x, Round history sys n r input x
  refine Follows.rests (Q := Q) closer_wf ?_ ⟨history, x, h⟩ seen
  rintro sys seen ⟨history, x, h⟩
  by_cases hq : sys.Quiescent
  · exact .inl hq
  have hround {act : SchedulerAct} {sys' : System} {events : List SchedulerEvent}
      (hobeys : sys.scheduler.Obeys answers seen act) (hstep : sys.step (.thread act) = some (sys', events)) :
      Q sys' ∧ sys'.Closer sys := by
    obtain ⟨y, hround, -⟩ := h.step hobeys hstep
    exact ⟨⟨_, y, hround⟩,
      h.steady.closer (gentle_of_obeys hobeys) (fun c id input e => by cases e; exact hobeys) hstep⟩
  rcases h.steady.gets_on hq with ⟨act, sys', events, hact, hstep⟩ | ⟨w, hend⟩
  · have hobeys : sys.scheduler.Obeys answers seen act := obeys_of_plain hact
    exact .inr ⟨act, sys', events, hobeys, hstep, hround hobeys hstep⟩
  · obtain ⟨answer, sys', events, hobeys, hstep⟩ := hend.reply answers seen
    exact .inr ⟨_, sys', events, hobeys, hstep, hround hobeys hstep⟩

end System

end SingleFlight
