import SingleFlight.Proofs.Origins

/-!
# Actions keep to themselves

With a pool or without one, the function of an action is called with inputs that were requested for this action and have
its input type, and its callbacks get outcomes of its own function, or the failure of a run of its own flight that broke
down. Saved and initial inputs are requests that the owner makes at the start.
-/

namespace SingleFlight

open Scheduler

section

variable [Payloads]

/-- The answer is one that the function of the action can give: its value has the output type. -/
def Registration.Gives (r : Registration) (answer : Reply) : Prop :=
  ∀ value, answer = .value (some value) → value.type = r.output

theorem Registration.typed_outcome {r : Registration} {answer : Reply} (h : r.Gives answer) :
    r.typed (Flight.caught (r.outcome answer)) = Flight.caught (r.outcome answer) := by
  cases answer with
  | value output =>
      cases hk : r.kind with
      | set | void => simp only [outcome, hk, Flight.caught, typed]
      | get =>
          cases output with
          | none => simp only [outcome, hk, Flight.caught, typed]
          | some v => simp only [outcome, hk, Flight.caught, typed, h v rfl, if_true]
  | failed | panicked => rfl

namespace System

variable {start sys sys' : System} {history : List Moment} {act : SystemAct} {events : List SchedulerEvent} {n : Nat}
  {c : Caller} {id : ActionId} {input : Payload} {token : Token} {o : Outcome} {message : String} {moment : Moment}

/-- The action was requested with this input. -/
def WasRequested (history : List Moment) (id : ActionId) (input : Payload) : Prop :=
  ∃ moment ∈ history, ∃ c, moment.act = .thread (.apply c id input)

/-- In the run from `start`, a thread that was inside of the function of the flight got this answer from it. -/
def Replied (start : System) (history : List Moment) (n : Nat) (answer : Reply) : Prop :=
  ∃ later events before sys c input token, history = later ++ { act := .thread (.reply c answer), events } :: before ∧
    Run start before sys ∧ sys.scheduler.inside? c = some (n, input, token)

/-- In the run from `start`, the flight could not start another invocation. -/
def BrokeDown (start : System) (history : List Moment) (n : Nat) (message : String) : Prop :=
  ∃ later before sys f, history = later ++ before ∧ Run start before sys ∧ sys.scheduler.flights[n]? = some f ∧
    f.start.2 = .panicked message

/-- The outcome is the one of an invocation of the flight, by the function of its own action. -/
def Earned (start : System) (history : List Moment) (sys : System) (n : Nat) (o : Outcome) : Prop :=
  ∃ f r answer, sys.scheduler.flights[n]? = some f ∧ sys.scheduler.registration? f.action = some r ∧
    Replied start history n answer ∧ o = Flight.caught (r.outcome answer)

theorem Run.registrations (h : Run start history sys) :
    sys.scheduler.registrations = start.scheduler.registrations := by
  induction h with
  | start => rfl
  | step _ hs ih => exact (step_registrations hs).trans ih

theorem Replied.later {answer : Reply} (h : Replied start history n answer) (moment : Moment) :
    Replied start (moment :: history) n answer := by
  obtain ⟨later, events, before, sys, c, input, token, rfl, hrest⟩ := h
  exact ⟨moment :: later, events, before, sys, c, input, token, rfl, hrest⟩

theorem BrokeDown.later (h : BrokeDown start history n message) (moment : Moment) :
    BrokeDown start (moment :: history) n message := by
  obtain ⟨later, before, sys, f, rfl, hrest⟩ := h
  exact ⟨moment :: later, before, sys, f, rfl, hrest⟩

theorem Earned.step (h : Earned start history sys n o) (hs : sys.step act = some (sys', events)) :
    Earned start ({ act, events } :: history) sys' n o := by
  obtain ⟨f, r, answer, hf, hr, hreplied, ho⟩ := h
  rcases step_cases hs with ⟨rfl, rfl, rfl⟩ | ⟨a, loop, rfl, -, hm, -⟩
  · exact ⟨f, r, answer, hf, hr, hreplied.later _, ho⟩
  · obtain ⟨g, hg, hp⟩ := hm.persists hf
    exact ⟨g, r, answer, hg, by rw [hp.action, hm.keeps.registration?, hr], hreplied.later _, ho⟩

/-! ## Inputs -/

/-- What is requested with the input type of a registered action. -/
def Proper (history : List Moment) (registrations : List Registration) (id : ActionId) (input : Payload) : Prop :=
  WasRequested history id input ∧ ∃ r, registrations[id.index]? = some r ∧ r.accepts input = true

theorem Reachable.proper (h : Reachable history sys) {f : Flight} (hf : sys.scheduler.flights[n]? = some f) :
    Proper history sys.scheduler.registrations f.action f.input :=
  h.fed_flights (P := Proper history sys.scheduler.registrations)
    (fun moment hm c _ _ r hact hr ha => ⟨⟨moment, hm, c, hact⟩, r, hr, ha⟩) n f hf

/-- No function turns away a copy of the input of its flight. -/
theorem Proper.callInput {registrations : List Registration} {r : Registration} {copy : Payload}
    (h : Proper history registrations id input) (hr : registrations[id.index]? = some r) (hcopy : input.copy = .ok copy) :
    r.callInput copy = .ok copy := by
  obtain ⟨-, r', hr', ha⟩ := h
  cases hr.symm.trans hr'
  exact Registration.callInput_of_accepts (Payload.copied_of_copy hcopy ▸ Registration.accepts_copied ha)

/-! ## Outcomes -/

theorem Begins.not_runs {stage : RunStage} (h : sys.Begins) : ¬ sys.scheduler.Runs n stage c := by
  intro hr
  cases hr with
  | worker hp hw =>
      obtain ⟨name, settings, rfl⟩ := h.pool_new hp
      simp [Pool.phase?, Pool.create] at hw
  | inline hx => rw [h.callsOf] at hx; cases hx

theorem Run.settled (h : Run start history sys) (hstart : start.IsOpened)
    (hr : sys.scheduler.Runs n (.settling token o) c) : Earned start history sys n o := by
  induction h generalizing c token o with
  | start => exact (hstart.begins.not_runs hr).elim
  | step hrun hs ih =>
      have hreach := hrun.reachable hstart
      rcases step_cases hs with ⟨rfl, rfl, rfl⟩ | ⟨a, loop, rfl, -, hm, -⟩
      · exact (ih hr).step hs
      · rcases hm.settles hreach.sane_or_inline hr with hr | hsettles
        · exact (ih hr).step hs
        · cases hsettles with
          | mistyped hf hcopy hreg hcall => cases ((hreach.proper hf).callInput hreg hcopy).symm.trans hcall
          | @answered _ answer input f r hin hf hreg =>
              obtain ⟨g, hg, hp⟩ := hm.persists hf
              exact ⟨g, r, answer, hg, by rw [hp.action, hm.keeps.registration?, hreg],
                ⟨[], _, _, _, c, input, token, rfl, hrun, hin⟩, rfl⟩

theorem Run.failing {p : Pool Nat WorkStage} {w : Nat} {panic : Option String} (h : Run start history sys)
    (hstart : start.IsOpened) (hp : sys.scheduler.pool = some p)
    (hw : p.phase? w = some (.worked n panic (.failing message))) : BrokeDown start history n message := by
  induction h generalizing p with
  | start =>
      obtain ⟨name, settings, rfl⟩ := hstart.begins.pool_new hp
      simp [Pool.phase?, Pool.create] at hw
  | step hrun hs ih =>
      rcases step_cases hs with ⟨rfl, rfl, rfl⟩ | ⟨a, loop, rfl, -, hm, -⟩
      · exact (ih hp hw).later _
      · obtain ⟨q, hq, -⟩ := hm.pool_before hp
        rcases hm.breaks ((hrun.reachable hstart).sane (by simp [isSynchronous, hq])) hp hw with ⟨q, hq, hw⟩ | ⟨f, hf, hb⟩
        · exact (ih hq hw).later _
        · exact ⟨[_], _, _, f, rfl, hrun, hf, hb⟩

/-- What a callback may get of its flight. -/
def Owned (start : System) (history : List Moment) (sys : System) (n : Nat) (o : Outcome) : Prop :=
  Earned start history sys n o ∨ ∃ message, BrokeDown start history n message ∧ o = .error (.panicked message)

theorem Run.owned (h : Run start history sys) (hstart : start.IsOpened) :
    sys.scheduler.Yields (Owned start history sys) := by
  refine h.yields (Q := Owned start) hstart ?_ ?_
  · intro history sys hrun _ n o hfills
    cases hfills with
    | stored hr => exact .inl (hrun.settled hstart hr)
    | failed hp hw => exact .inr ⟨_, hrun.failing hstart hp hw, rfl⟩
  · intro history sys act sys' events _ hs n o ho
    rcases ho with hearned | ⟨message, hbroke, ho⟩
    · exact .inl (hearned.step hs)
    · exact .inr ⟨message, hbroke.later _, ho⟩

/-- A function is called with copies of inputs that were requested for its own action, and they have its input type, so
that it never turns its input away. What goes to a callback is the outcome of an answer of its own function, which is
never a value of another type, or the failure of a run of its own flight that broke down. -/
theorem actions_keep_apart {p : Plan} {identity tag : String} {processors : Nat} {s : Scheduler}
    (hp : Numbered p.registrations) (hopen : p.opening identity tag processors = .opened s)
    (hrun : Run { scheduler := s } history sys) (hs : sys.step act = some (sys', events)) :
    (∀ c n id input token, .called c n id input token ∈ events →
      ∃ r requested, p.registrations[id.index]? = some r ∧ r.id = id ∧ input.type = r.inputType ∧
        WasRequested history id requested ∧ requested.copy = .ok input) ∧
    (∀ c n id kind d, .notified c n id kind d ∈ events → ∃ f r, sys.scheduler.flights[n]? = some f ∧ f.action = id ∧
      p.registrations[id.index]? = some r ∧ r.id = id ∧ r.kind = kind ∧
      ((∃ answer, Replied { scheduler := s } history n answer ∧ d = r.deliver (Flight.caught (r.outcome answer)) ∧
          (r.Gives answer → r.typed (Flight.caught (r.outcome answer)) = Flight.caught (r.outcome answer))) ∨
        ∃ message, BrokeDown { scheduler := s } history n message ∧ d = r.deliver (.error (.panicked message)))) ∧
    ∀ (n : Nat) (f : Flight) r copy, sys.scheduler.flights[n]? = some f → p.registrations[f.action.index]? = some r →
      f.input.copy = .ok copy → r.callInput copy = .ok copy := by
  have hstart : IsOpened { scheduler := s } := ⟨p, identity, tag, processors, s, hp, hopen, rfl⟩
  have hreach := hrun.reachable hstart
  have hregs : sys.scheduler.registrations = p.registrations := by
    have hfirst : s.registrations = p.registrations := by
      rcases Plan.opening_cases hopen with ⟨-, rfl⟩ | ⟨_, -, -, -, rfl⟩ <;> rfl
    exact hrun.registrations.trans hfirst
  have hreg {id : ActionId} {r : Registration} (hr : sys.scheduler.registration? id = some r) :
      p.registrations[id.index]? = some r := by rw [← hregs]; exact hr
  refine ⟨fun c n id input token he => ?_, fun c n id kind d he => ?_, fun n f r copy hf hr hcopy =>
    (hreach.proper hf).callInput (hregs ▸ hr) hcopy⟩
  · rcases step_cases hs with ⟨rfl, rfl, rfl⟩ | ⟨a, loop, rfl, -, hm, -⟩
    · cases he
    · obtain ⟨f, r, copy, hf, rfl, hr, hcopy, hcall⟩ := hm.called_input he
      have hproper := hreach.proper hf
      cases (hproper.callInput hr hcopy).symm.trans hcall
      obtain ⟨hrequested, r', hr', ha⟩ := hproper
      cases hr.symm.trans hr'
      have haccepted := Registration.accepts_copied ha
      rw [Payload.copied_of_copy hcopy] at haccepted
      exact ⟨r, f.input, hreg hr, hp _ r (hreg hr), by simpa [Registration.accepts] using haccepted, hrequested, hcopy⟩
  · rcases step_cases hs with ⟨rfl, rfl, rfl⟩ | ⟨a, loop, rfl, -, hm, -⟩
    · cases he
    · cases hm.news he rfl with
      | @notified _ _ _ o f r rest hcs hf hr =>
          have hid : r.id = f.action := hp _ r (hreg hr)
          refine ⟨f, r, hf, hid.symm, hid ▸ hreg hr, rfl, rfl, ?_⟩
          rcases (hrun.owned hstart).given c n o (hcs ▸ List.mem_cons_self) with hearned | ⟨message, hbroke, rfl⟩
          · obtain ⟨f', r', answer, hf', hr', hreplied, rfl⟩ := hearned
            cases hf.symm.trans hf'
            cases hr.symm.trans hr'
            exact .inl ⟨answer, hreplied, rfl, Registration.typed_outcome⟩
          · exact .inr ⟨message, hbroke, rfl⟩

end System

end

namespace System

/-- Without a pool, the function of one action requests another action while it is under way: the function of that one is
called with the input of this request, and its sink gets the failure of this function. -/
theorem nested_request_kept_apart : ∃ (p : Plan) (s : Scheduler) (history later : List Moment) (sys sys' sys₁ sys₁' : System)
    (failure : Failure), Numbered p.registrations ∧ p.opening "two" "two" 1 = .opened s ∧ Run { scheduler := s } history sys ∧
    sys.step (.thread (.advance .owner none)) = some (sys', [.called .owner 1 ⟨1⟩ (.bool true) ⟨0⟩]) ∧
    WasRequested history ⟨1⟩ (.bool true) ∧ Run { scheduler := s } (later ++ history) sys₁ ∧
    sys₁.step (.thread (.advance .owner none)) = some (sys₁', [.notified .owner 1 ⟨1⟩ .set (.sink failure)]) ∧
    ∃ (r : Registration) (answer : Reply), Replied { scheduler := s } (later ++ history) 1 answer ∧
      .sink failure = r.deliver (Flight.caught (r.outcome answer)) := by
  let p : Plan := (({} : Plan).register .get .string false).register .set .bool true
  let acts : List SystemAct :=
    [ .thread (.apply .owner ⟨0⟩ (.string "a")), .thread (.advance .owner none), .thread (.apply .owner ⟨1⟩ (.bool true)) ]
  let acts' : List SystemAct :=
    [ .thread (.advance .owner none), .thread (.reply .owner (.failed (.ofText "no"))), .thread (.advance .owner none),
      .thread (.advance .owner none) ]
  obtain ⟨s, history, sys, sys', later, sys₁, sys₁', hopen, hr, hcalled, hr', hnotified⟩ :
      ∃ s history sys sys' later sys₁ sys₁', p.opening "two" "two" 1 = .opened s ∧
      replay acts [] { scheduler := s } = some (history, sys) ∧
      sys.step (.thread (.advance .owner none)) = some (sys', [.called .owner 1 ⟨1⟩ (.bool true) ⟨0⟩]) ∧
      replay acts' [] sys = some (later, sys₁) ∧ sys₁.step (.thread (.advance .owner none))
        = some (sys₁', [.notified .owner 1 ⟨1⟩ .set (.sink (.failed (.ofText "no")))]) :=
    ⟨_, _, _, _, _, _, _, rfl, rfl, rfl, rfl, rfl⟩
  have hp : Numbered p.registrations := by
    refine .register (.register ?_ _ _ _) _ _ _
    intro i r hi
    cases hi
  have hrun : Run { scheduler := s } history sys := replay_run .start hr
  have hrun' : Run { scheduler := s } (later ++ history) sys₁ := hrun.trans (replay_run .start hr')
  obtain ⟨r, requested, -, -, -, hrequested, hcopy⟩ :=
    (actions_keep_apart hp hopen hrun hcalled).1 _ _ _ _ _ (List.mem_singleton.mpr rfl)
  obtain rfl := Payload.eq_of_copy hcopy
  obtain ⟨f, r', -, -, hreg, -, -, howned⟩ :=
    (actions_keep_apart hp hopen hrun' hnotified).2.1 _ _ _ _ _ (List.mem_singleton.mpr rfl)
  refine ⟨p, s, history, later, sys, sys', sys₁, sys₁', _, hp, hopen, hrun, hcalled, hrequested, hrun', hnotified, r', ?_⟩
  rcases howned with ⟨answer, hreplied, hd, -⟩ | ⟨message, -, hd⟩
  · exact ⟨answer, hreplied, hd⟩
  · cases hreg; cases hd

end System

end SingleFlight
