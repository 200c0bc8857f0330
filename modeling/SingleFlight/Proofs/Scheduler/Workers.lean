import SingleFlight.Proofs.Scheduler.News
import SingleFlight.Proofs.Scheduler.Sane

/-!
# Workers inside of flights

A worker inside of a task gets on by its own labour only, and a worker inside of the scheduler's code makes no
calls.
-/

namespace SingleFlight.Scheduler

variable [Payloads] {s s' : Scheduler} {p : Pool Nat WorkStage} {act : SchedulerAct} {c : Caller} {w n : Nat} {f : Flight}
  {a : WorkerPhase Nat WorkStage} {events : List SchedulerEvent}

/-- The move is not one of a worker inside of a task. -/
def Bystanding (s : Scheduler) (p : Pool Nat WorkStage) (act : SchedulerAct) : Prop :=
  ∀ w a, p.phase? w = some a → a.isEngaged = true → s.callsOf (.worker w) = [] →
    (∀ refusal, act ≠ .advance (.worker w) refusal) ∧ ∀ answer, act ≠ .reply (.worker w) answer

/-- A step outside of tasks is none of a worker inside of a task. -/
theorem bystanding_of_work {v : Nat} {step : WorkerAct WorkStage} {q : Pool Nat WorkStage} {pooled : List (PoolEvent Nat)}
    (hact : act = .expire v ∨ ∃ r, act = .advance (.worker v) r) (hstep : step.isRoutine = true)
    (hq : p.work v step = some (q, pooled)) : s.Bystanding p act := by
  intro w a hw ha _
  rcases hact with rfl | ⟨r, rfl⟩
  · exact ⟨by simp, by simp⟩
  · refine ⟨?_, by simp⟩
    rintro refusal ⟨⟩
    cases a <;> cases ha <;> cases step <;> simp [Pool.work, hw] at hq <;> cases hstep

theorem bystanding_of_calls {refusal : Option IoError} {x : Call} {rest : List Call} (hcs : s.callsOf c = x :: rest) :
    s.Bystanding p (.advance c refusal) := by
  intro w a _ _ hidle
  refine ⟨?_, by simp⟩
  rintro refusal' ⟨⟩
  rw [hcs] at hidle; cases hidle

theorem Turn.bystanding {cs cs' : List Call} (h : Turn s act c cs cs' events) (hcs : s.callsOf c = cs) :
    s.Bystanding p act := by
  have hne {x : Call} {rest : List Call} {w : Nat} (hx : s.callsOf (.worker w) = x :: rest) :
      s.callsOf (.worker w) ≠ [] := by rw [hx]; simp
  intro w a _ _ hidle
  cases h <;> refine ⟨?_, ?_⟩ <;> intro _ e <;> cases e <;> exact hne hcs hidle

/-- Every move is the labour of a worker at its flight, or leaves the workers inside of tasks alone. -/
theorem Move.labour_or_undisturbed (hm : Move s act s' events) (h : s.Sane) (hp : s.pool = some p) :
    (∃ v n f g a b, s.callsOf (.worker v) = [] ∧ p.phase? v = some a ∧ s.flights[n]? = some f ∧
      Labour s v (p.workerName v) n f act a g b events ∧
      s' = { s.setFlight n g with pool := some (p.setPhase v b) }) ∨
    ∃ q, s'.pool = some q ∧ Pool.Undisturbed p q ∧ s.Bystanding p act := by
  have hman := h.regular.manned p hp
  have hother (hq : s'.pool = s.pool) (hby : s.Bystanding p act) :
      ∃ q, s'.pool = some q ∧ Pool.Undisturbed p q ∧ s.Bystanding p act :=
    ⟨p, hq.trans hp, .refl p, hby⟩
  have hnever (h1 : ∀ w refusal, act ≠ .advance (.worker w) refusal) (h2 : ∀ w answer, act ≠ .reply (.worker w) answer) :
      s.Bystanding p act := fun w _ _ _ _ => ⟨h1 w, h2 w⟩
  cases hm with
  | unknown | mismatched | late | ignored | shutAgain | inlined | shut =>
      exact .inr (hother rfl (hnever (by simp) (by simp)))
  | turned ht => exact .inr (hother rfl (ht.bystanding rfl))
  | launched hcs | superseded hcs | rearmed hcs | collected hcs | ranInline hcs | took hcs | reported hcs
  | undone hcs | gaveUp hcs => exact .inr (hother rfl (bystanding_of_calls hcs))
  | submitted hcs _ hr ha =>
      cases hp.symm.trans hr
      exact .inr ⟨_, rfl, ha.undisturbed hman, bystanding_of_calls hcs⟩
  | worked hcs hr hv hf hl =>
      cases hp.symm.trans hr
      exact .inl ⟨_, _, _, _, _, _, hcs, hv, hf, hl, rfl⟩
  | @warned v _ n _ hcs hr hv hs =>
      cases hp.symm.trans hr
      have hq : p.work v .heed = some (p.setPhase v (.ready n), [.interrupted n]) := by simp [Pool.work, hv, hs]
      exact .inr ⟨_, rfl, .setPhase hman.distinct hv rfl rfl, bystanding_of_work (.inr ⟨_, rfl⟩) rfl hq⟩
  | idled hact hr hq hstep =>
      cases hp.symm.trans hr
      exact .inr ⟨_, rfl, (Pool.Quiet.work hman hstep hq).undisturbed,
        bystanding_of_work (hact.imp_right And.right) hstep hq⟩
  | halted hcs _ _ hr hq | alarmed hcs _ _ hr hq =>
      cases hp.symm.trans hr
      exact .inr ⟨_, rfl, (Pool.Drained.halting hman hq).undisturbed, bystanding_of_calls hcs⟩
  | abandoned _ hr _ hq =>
      cases hp.symm.trans hr
      exact .inr ⟨_, rfl, (Pool.Drained.halting hman hq).undisturbed, hnever (by simp) (by simp)⟩

theorem Turn.innermost {cs cs' : List Call} (h : Turn s act c cs cs' events) (hcs : cs = [])
    (hfree : s.isFree c = false) : False := by
  cases h <;> first | (cases hcs; done) | simp_all

theorem Move.callsOf_idle (hm : Move s act s' events) (hcs : s.callsOf c = []) (hfree : s.isFree c = false) :
    s'.callsOf c = [] := by
  have hother {u : Scheduler} {d : Caller} {cs : List Call} (hu : u.calls = s.calls) (hd : c ≠ d) :
      (u.setCalls d cs).callsOf c = [] := by
    rw [callsOf_setCalls, if_neg hd, callsOf_congr hu, hcs]
  have hcalls {d : Caller} {x : Call} {rest : List Call} (hd : s.callsOf d = x :: rest) : c ≠ d := by
    rintro rfl
    rw [hcs] at hd; cases hd
  have hfrees {d : Caller} (hd : s.isFree d = true) : c ≠ d := by
    rintro rfl
    rw [hfree] at hd; cases hd
  cases hm with
  | @turned _ d _ _ ht =>
      refine hother rfl ?_
      rintro rfl
      exact ht.innermost hcs hfree
  | launched hd | superseded hd | rearmed hd | submitted hd | collected hd | ranInline hd | took hd =>
      exact hother rfl (hcalls hd)
  | inlined hd | shut hd => exact hother rfl (hfrees hd)
  | _ => exact hcs

/-- A worker that has no calls under way and is not inside of its function cannot call. -/
theorem isFree_worker (hp : s.pool = some p) (hw : p.phase? w = some a) (hcs : s.callsOf (.worker w) = [])
    (ha : ∀ n input token, a ≠ .working n (.running (.invoking input token))) : s.isFree (.worker w) = false := by
  simp only [isFree, hcs, isInvoking, hp, Option.bind_some, hw]
  split
  · rename_i h; cases h; exact absurd rfl (ha _ _ _)
  · rfl

theorem Turn.advancing {d : Caller} {refusal : Option IoError} {cs cs' : List Call}
    (h : Turn s (.advance c refusal) d cs cs' events) : d = c ∧ cs ≠ [] := by
  cases h <;> simp

theorem Move.enters {refusal : Option IoError} (hm : Move s (.advance (.worker w) refusal) s' events)
    (hcs : s.callsOf (.worker w) = []) (hp : s.pool = some p) (hw : p.phase? w = some (.ready n)) :
    ∃ f, s.flights[n]? = some f ∧
      s' = { s.setFlight n (f.bind (p.workerName w)) with
             pool := some (p.setPhase w (.working n (.running .starting))) } := by
  have hcalls {d : Call} {rest : List Call} (hd : s.callsOf (.worker w) = d :: rest) : False := by
    rw [hcs] at hd; cases hd
  cases hm with
  | turned ht => obtain ⟨rfl, hne⟩ := ht.advancing; exact absurd hcs hne
  | worked _ hr hv hf hl =>
      cases hp.symm.trans hr
      cases hl with
      | bound => cases hw.symm.trans hv; exact ⟨_, hf, rfl⟩
      | _ => cases hw.symm.trans hv
  | warned _ hr hv => cases hp.symm.trans hr; cases hw.symm.trans hv
  | @idled _ v step _ _ _ hact hr hq hstep =>
      cases hp.symm.trans hr
      obtain hact | ⟨-, r, hact⟩ := hact
      · cases hact
      · cases hact
        cases step <;> simp [Pool.work, hw] at hq <;> cases hstep
  | launched hd | superseded hd | rearmed hd | submitted hd | collected hd | ranInline hd | took hd | halted hd
  | alarmed hd | reported hd | undone hd | gaveUp hd => exact (hcalls hd).elim

/-! ## Standings -/

theorem waiting_pos (hp : s.pool = some p) (hw : p.phase? w = some a) (ha : a.held? = some n) :
    0 < (s.standing n).waiting := by
  have := Pool.tally_pos (P := fun c => decide (c.held? = some n)) hw (decide_eq_true ha)
  simp only [standing, hp, Option.elim_some, Pool.pending]
  omega

theorem starting_pos (hp : s.pool = some p) (hw : p.phase? w = some a) (ha : a.isStarting n = true) :
    0 < (s.standing n).starting := by
  simpa [standing, hp] using Pool.tally_pos (P := WorkerPhase.isStarting n) hw ha

theorem inside_pos (hp : s.pool = some p) (hw : p.phase? w = some a) (ha : a.isInside n = true) :
    0 < (s.standing n).inside := by
  simpa [standing, hp] using Pool.tally_pos (P := WorkerPhase.isInside n) hw ha

end SingleFlight.Scheduler
