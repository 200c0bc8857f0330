import SingleFlight.Proofs.Scheduler.Frame

/-!
# Where calls come from

Every call that a thread has under way was there before the move or arises from it: a request or the loop starts
it, or the innermost call of the thread goes on with it.
-/

namespace SingleFlight.Scheduler

variable [Payloads] {s s' : Scheduler} {act : SchedulerAct} {c d : Caller} {x : Call} {events : List SchedulerEvent}

/-- `Arises s act c x`: the step `act` gives the thread `c` the call `x`. -/
inductive Arises (s : Scheduler) : SchedulerAct → Caller → Call → Prop
  | requested {id input r} : s.registration? id = some r → r.accepts input = true → s.isClosed = false →
      Arises s (.apply .owner id input) .owner (.applying id input)
  | sent {c id input r} : s.registration? id = some r → r.accepts input = true → s.isClosed = false →
      Arises s (.apply c id input) c (.posting id input)
  | received {id input} : Arises s (.run (.request id input)) .owner (.applying id input)
  | landed {n} : Arises s (.run (.handBack n)) .owner (.finishing n)
  | found {c refusal id input n rest} : s.callsOf c = .applying id input :: rest → s.flightOf? id = some n →
      Arises s (.advance c refusal) c (.offering n input)
  | launched {c refusal id input rest} : s.callsOf c = .applying id input :: rest →
      Arises s (.advance c refusal) c (.submitting s.flights.length)
  | rearmed {c refusal n input rest} : s.callsOf c = .offering n input :: rest →
      Arises s (.advance c refusal) c (.submitting n)
  | collected {c refusal n f outcome rest} : s.callsOf c = .finishing n :: rest → s.flights[n]? = some f →
      s.flightOf? f.action = some n → f.phase = .completed → f.output = some outcome →
      Arises s (.advance c refusal) c (.delivering n outcome)
  | inlined {c id input} : s.isSynchronous = true → s.isClosed = false →
      Arises s (.apply c id input) c (.running s.flights.length .starting)
  | ran {c refusal n stage rest f g next events x} : s.callsOf c = .running n stage :: rest →
      s.flights[n]? = some f → Running s c n f stage g next events → x ∈ next.calls n →
      Arises s (.advance c refusal) c x
  | took {c refusal n outcome rest} : s.callsOf c = .taking n :: rest →
      Arises s (.advance c refusal) c (.delivering n outcome)
  | notified {c refusal n outcome rest} : s.callsOf c = .delivering n outcome :: rest →
      Arises s (.advance c refusal) c (.calling n)
  | answered {c answer n input token outcome rest} : s.callsOf c = .running n (.invoking input token) :: rest →
      Arises s (.reply c answer) c (.running n (.settling token outcome))
  | shut {c : Caller} : s.isClosed = false → Arises s (.close c) c .closing

theorem Turn.arises {cs cs' : List Call} (h : Turn s act c cs cs' events) (hcs : s.callsOf c = cs) (hx : x ∈ cs') :
    x ∈ cs ∨ Arises s act c x := by
  have hinner {y z : Call} {rest : List Call} (hy : Arises s act c y) (hx : x ∈ y :: rest) :
      x ∈ z :: rest ∨ Arises s act c x := by
    rcases List.mem_cons.mp hx with rfl | hx
    · exact .inr hy
    · exact .inl (List.mem_cons_of_mem _ hx)
  have houter {y : Call} {rest : List Call} (hy : Arises s act c y) (hx : x ∈ y :: rest) :
      x ∈ rest ∨ Arises s act c x := by
    rcases List.mem_cons.mp hx with rfl | hx
    · exact .inr hy
    · exact .inl hx
  cases h with
  | requested _ _ hr ha hc => exact houter (.requested hr ha hc) hx
  | sent _ _ _ hr ha hc => exact houter (.sent hr ha hc) hx
  | received => exact houter .received hx
  | landed => exact houter .landed hx
  | found _ hn => exact hinner (.found hcs hn) hx
  | notified => exact hinner (.notified hcs) hx
  | answered => exact hinner (.answered hcs) hx
  | _ => exact .inl (List.mem_cons_of_mem _ hx)

theorem Move.arises (hm : Move s act s' events) (hx : x ∈ s'.callsOf d) : x ∈ s.callsOf d ∨ Arises s act d x := by
  -- the thread `c` goes on with `cs`, each of which it had or gets
  have hset {u : Scheduler} {c : Caller} {cs : List Call} (hu : u.calls = s.calls)
      (hcs : ∀ y ∈ cs, y ∈ s.callsOf c ∨ Arises s act c y) (hx : x ∈ (u.setCalls c cs).callsOf d) :
      x ∈ s.callsOf d ∨ Arises s act d x := by
    rw [callsOf_setCalls] at hx
    split at hx
    · rename_i e; subst e; exact hcs x hx
    · rw [callsOf_congr hu] at hx; exact .inl hx
  have hrest {c : Caller} {y : Call} {rest : List Call} (hc : s.callsOf c = y :: rest) :
      ∀ z ∈ rest, z ∈ s.callsOf c ∨ Arises s act c z :=
    fun z hz => .inl (hc ▸ List.mem_cons_of_mem _ hz)
  have hcons {c : Caller} {y : Call} {cs : List Call} (hy : Arises s act c y)
      (hcs : ∀ z ∈ cs, z ∈ s.callsOf c ∨ Arises s act c z) : ∀ z ∈ y :: cs, z ∈ s.callsOf c ∨ Arises s act c z := by
    intro z hz
    rcases List.mem_cons.mp hz with rfl | hz
    · exact .inr hy
    · exact hcs z hz
  cases hm with
  | turned ht => exact hset rfl (fun y hy => ht.arises rfl hy) hx
  | launched hc => exact hset rfl (hcons (.launched hc) (hrest hc)) hx
  | superseded hc | submitted hc => exact hset rfl (hrest hc) hx
  | rearmed hc => exact hset rfl (hcons (.rearmed hc) (hrest hc)) hx
  | collected hc hf hn hd ho => exact hset rfl (hcons (.collected hc hf hn hd ho) (hrest hc)) hx
  | inlined _ hs _ _ hc => exact hset rfl (hcons (.inlined hs hc) fun z hz => .inl hz) hx
  | ranInline hc hf hr =>
      refine hset rfl (fun y hy => ?_) hx
      rcases List.mem_append.mp hy with hy | hy
      · exact .inr (.ran hc hf hr hy)
      · exact hrest hc y hy
  | took hc => exact hset rfl (hcons (.took hc) (hrest hc)) hx
  | shut _ hc => exact hset rfl (hcons (.shut hc) fun z hz => .inl hz) hx
  | _ => exact .inl hx

end SingleFlight.Scheduler
