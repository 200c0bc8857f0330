import SingleFlight.Proofs.Scheduler.News
import SingleFlight.Proofs.Scheduler.Sane

/-!
# Flights that the pool refuses

A flight is put into the air, or queued again, before it is submitted. If the pool refuses it, the flight stays
where it is. Unless the pool kept it in its queue all the same, nobody has it in hand then, and as long as the
scheduler is open nobody ever will: the flight is orphaned, and it blocks its action.
-/

namespace SingleFlight

variable [Payloads]

/-- The event tells that a flight of the action is started, that its function is called, or that its outcome is
taken. -/
def SchedulerEvent.serves (id : ActionId) : SchedulerEvent → Bool
  | .queued _ action _ _ => action = id
  | .called _ _ action _ _ => action = id
  | .delivered _ action _ => action = id
  | _ => false

namespace Scheduler

variable {s s' : Scheduler} {act : SchedulerAct} {c : Caller} {n m : Nat} {f : Flight} {e : SchedulerEvent}
  {events : List SchedulerEvent}

/-! ## Where refusals come from -/

theorem Turn.accepting {cs cs' : List Call} (h : Turn s act c cs cs' events) (he : e ∈ events) :
    e.isRefusal = false := by
  cases h <;> simp only [List.mem_cons, List.not_mem_nil, or_false] at he <;> rcases he with rfl | rfl <;> rfl

theorem Running.accepting {stage : RunStage} {g : Flight} {next : RunStep}
    (h : Running s c n f stage g next events) (he : e ∈ events) : e.isRefusal = false := by
  cases h <;> simp only [List.mem_cons, List.not_mem_nil, or_false] at he <;> subst he <;> rfl

theorem Labour.accepting {w : Nat} {name : String} {a b : WorkerPhase Nat WorkStage} {g : Flight}
    (h : Labour s w name n f act a g b events) (he : e ∈ events) : e.isRefusal = false := by
  cases h with
  | ran hr =>
      rcases List.mem_append.mp he with he | he
      · exact hr.accepting he
      · unfold RunStep.panics at he
        split at he
        · obtain rfl := List.mem_singleton.mp he; rfl
        · cases he
  | bound => simp at he; rcases he with rfl | rfl | rfl <;> rfl
  | withheld | posted => simp at he; rcases he with rfl | rfl <;> rfl
  | answered | failed | unbound | returned => cases he

/-- Only the submission of a flight is refused. -/
theorem Move.refused {error : PoolError} (hm : Move s act s' events) (he : .pool (.refused n error) ∈ events) :
    ∃ c refusal rest f p q pooled, act = .advance c refusal ∧ s.callsOf c = .submitting n :: rest ∧
      s.flights[n]? = some f ∧ s.pool = some p ∧ Pool.Admission p n refusal q pooled ∧
      .refused n error ∈ pooled ∧ s' = { s with pool := some q }.setCalls c rest ∧
      events = pooled.map .pool ++ submissionAnswer c p.name f.action (PoolEvent.refusal? pooled) := by
  cases hm with
  | @submitted c refusal m f p q pooled rest hcs hf hp ha =>
      rcases List.mem_append.mp he with he | he
      · obtain ⟨x, hx, hxe⟩ := List.mem_map.mp he
        cases hxe
        obtain rfl : n = m := by
          cases ha <;> simp only [List.mem_cons, reduceCtorEq, List.not_mem_nil, or_false, PoolEvent.refused.injEq] at hx
          all_goals exact hx.1
        exact ⟨c, refusal, rest, f, p, q, pooled, rfl, hcs, hf, hp, ha, hx, rfl, rfl⟩
      · unfold submissionAnswer at he
        split at he <;> simp at he
  | turned ht => cases ht.accepting he
  | worked _ _ _ _ hl => cases hl.accepting he
  | ranInline _ _ hr =>
      rcases List.mem_append.mp he with he | he
      · cases hr.accepting he
      · unfold RunStep.faults at he
        split at he <;> simp at he
  | idled _ _ _ _ hev => rcases hev with rfl | rfl <;> simp at he
  | halted _ _ _ _ hq =>
      rcases Pool.halting_events hq with ⟨_, rfl⟩ | rfl | ⟨_, _, rfl⟩ | ⟨_, rfl⟩ <;> simp at he
  | _ => simp at he

/-! ## Orphans -/

/-- The flight is queued, and nobody has it in hand. -/
def Orphaned (s : Scheduler) (n : Nat) : Prop := s.standing n = ⟨some .queued, 0, 0, 0⟩

theorem Orphaned.busy (h : s.Orphaned n) : (s.standing n).Busy := by
  rw [h]; exact .inl ⟨by simp, by simp⟩

theorem Orphaned.queued (h : s.Orphaned n) : ∃ f, s.flights[n]? = some f ∧ f.phase = .queued := by
  have hp : (s.standing n).phase = some .queued := by rw [h]
  simpa [standing, Option.map_eq_some_iff] using hp

/-- Only the closing of the scheduler changes what becomes of an orphan. -/
theorem Move.orphaned (hm : Move s act s' events) (h : s.Sane) (ho : s.Orphaned n) (hopen : s'.isClosed = false) :
    s'.Orphaned n := by
  have hshift := hm.shift h.regular h.pooled n
  rw [Orphaned] at ho ⊢
  rw [ho] at hshift
  generalize s'.standing n = st at hshift
  cases hshift with
  | kept e => exact e
  | shed hc => rw [hopen] at hc; cases hc
  | launched hp | declined hp | dropped hp | rearmed hp | landed hp => cases hp
  | refused _ _ hw | entered _ hw => cases hw
  | begun _ _ _ _ hs => cases hs
  | retried _ _ _ _ _ hi | stored _ _ _ _ _ hi => cases hi

theorem Orphaned.alone {g : Flight} (ho : s.Orphaned n) (h : s.Sane) (hf : s.flights[n]? = some f)
    (hg : s.flights[m]? = some g) (ha : g.action = f.action) (hb : (s.standing m).Busy) : m = n :=
  h.exclusive m n g f hg hf ha hb ho.busy

theorem Orphaned.blocks (ho : s.Orphaned n) (h : s.Sane) (hf : s.flights[n]? = some f) (hopen : s.isClosed = false)
    (hm : Move s act s' events) (he : e ∈ events) : e.serves f.action = false := by
  cases hserves : e.serves f.action with
  | false => rfl
  | true =>
      have hnews : e.isNews = true := by
        cases e <;> first | rfl | cases hserves
      cases hm.news he hnews with
      | queued _ _ hnone =>
          obtain rfl : _ = f.action := by simpa [SchedulerEvent.serves] using hserves
          exact absurd (h.busy_inFlight hopen hf ho.busy) (not_mem_of_flightOf? hnone)
      | @called _ _ m g _ _ hr hg =>
          have ha : g.action = f.action := by simpa [SchedulerEvent.serves] using hserves
          cases hr with
          | inline hcs => cases h.regular.orderly.suited h.pooled hcs
          | worker _ hp hw =>
              have hstarting : 0 < (s.standing m).starting := by
                simpa [standing, hp] using Pool.tally_pos (P := WorkerPhase.isStarting m) hw (by simp)
              obtain rfl := ho.alone h hf hg ha (.inr (by omega))
              rw [ho] at hstarting; cases hstarting
      | @delivered _ _ m g _ _ hg hd =>
          have ha : g.action = f.action := by simpa [SchedulerEvent.serves] using hserves
          have hb : (s.standing m).Busy := .inl (by simp [standing, hg, hd])
          obtain rfl := ho.alone h hf hg ha hb
          obtain ⟨f', hf', hq⟩ := ho.queued
          cases hg.symm.trans hf'
          rw [hd] at hq; cases hq
      | sent | superseded | rearmed | retried | completed | notified | ran | handedBack | closed => cases hserves

/-! ## What a refusal leaves -/

/-- A refused flight stays in the air, queued. It is an orphan, or it waits in the queue of a pool without workers. -/
theorem Move.refused_stays {error : PoolError} (hm : Move s act s' events) (h : s.Sane) (hopen : s.isClosed = false)
    (he : .pool (.refused n error) ∈ events) (hne : error ≠ .stopped) :
    ∃ f p, s.flights[n]? = some f ∧ s.pool = some p ∧ f.phase = .queued ∧ (f.action, n) ∈ s.inFlight ∧
      events = [.pool (.refused n error), .panicked .owner (submissionFault p.name f.action error)] ∧
      s'.inFlight = s.inFlight ∧ s'.flights = s.flights ∧
      (s'.Orphaned n ∨ ∃ q, s'.pool = some q ∧ n ∈ q.queue ∧ q.live = 0) := by
  obtain ⟨c, refusal, rest, f, p, q, pooled, -, hcs, hf, hp, ha, hr, rfl, rfl⟩ := hm.refused he
  obtain rfl := h.regular.orderly.owner h.pooled hcs (by simp [Call.suits])
  have hsound := h.sound n
  have hspent := h.spent hopen n
  have hone := hsound.le_one
  -- the owner has the flight in hand, so nobody else has, and its phase is the one of the queue
  have hwaiting : (s.standing n).waiting = 1 + rest.countP (Call.submits n) + p.pending n := by
    simp [standing, hcs, hp]; omega
  have hphase : f.phase = .queued := by
    have hst : (s.standing n).phase = some f.phase := by simp [standing, hf]
    simp only [Standing.Spent, Standing.Sound, hst] at hsound hspent
    cases hph : f.phase with
    | queued => rfl
    | running | completed => simp only [hph] at hsound; omega
    | closed => have := hspent (by rw [hph]); omega
  have hbusy : (s.standing n).Busy := .inr (by omega)
  have horphan : ({ s with pool := some p }.setCalls .owner rest).Orphaned n := by
    have hrest : rest.countP (Call.submits n) = 0 := by omega
    have hpending : p.pending n = 0 := by omega
    have hstart : p.tally (WorkerPhase.isStarting n) = 0 := by
      have : (s.standing n).starting = p.tally (WorkerPhase.isStarting n) := by simp [standing, hp]
      omega
    have hinside : p.tally (WorkerPhase.isInside n) = 0 := by
      have : (s.standing n).inside = p.tally (WorkerPhase.isInside n) := by simp [standing, hp]
      omega
    simp [Orphaned, standing, hf, hphase, hrest, hpending, hstart, hinside]
  refine ⟨f, p, hf, hp, hphase, h.busy_inFlight hopen hf hbusy, ?_, rfl, rfl, ?_⟩
  · cases ha <;> simp at hr
    · exact absurd hr hne
    all_goals subst hr; rfl
  · cases ha with
    | stopped | unstaffed | full => exact .inl horphan
    | started | handed | queued | rescued => simp at hr
    | stranded _ _ hlive => exact .inr ⟨p.enqueue n, rfl, by simp [Pool.queue, Pool.enqueue], hlive⟩

end Scheduler

end SingleFlight
