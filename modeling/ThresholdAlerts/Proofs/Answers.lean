import ThresholdAlerts.Proofs.Alone
import ThresholdAlerts.Proofs.Waits
/-! Requests that meet no others. A request is polled until it is answered, and nothing else happens but that time
passes. Main statement: where nobody queues for what it asks for, the answer and the world are those of carrying it
out directly. -/
namespace ThresholdAlerts

open Function

def World.Idles (w w' : World) : Prop :=
  ∃ clock lulls, w.clock ≤ clock ∧ w.lulls ≤ lulls ∧ w' = { w with clock, lulls }

/-- A request is polled until it is answered, and nothing happens in between but that time passes. -/
inductive Request.Endures (r : Request) : World → r.Wait → World → r.Answer → Prop
  | answered {w wait w' a} (polled : r.poll wait w = (w', .answered a)) : Endures r w wait w' a
  | waits {w wait w₁ wait₁ w₂ w' a} (polled : r.poll wait w = (w₁, .waiting wait₁)) (idles : w₁.Idles w₂)
      (rest : Endures r w₂ wait₁ w' a) : Endures r w wait w' a

section Answers

variable {w w' : World} {ticket : Ticket} {rule : RuleId} {id : SlotId} {mode : Acquire} {event : Event}

namespace Request

theorem lt_of_not_le {a b : Duration} (h : ¬ a ≤ b) : b < a :=
  Nat.lt_of_not_le h

theorem not_le_of_lt {a b : Duration} (h : b < a) : ¬ a ≤ b :=
  Nat.not_le_of_lt h

/-! ### Waiting -/

theorem idles_waitUntil (w : World) (time : Duration) : w.Idles (waitUntil w time) :=
  ⟨_, _, le_max_left .., Nat.le_refl _, rfl⟩

theorem waitUntil_of_le {time : Duration} (past : time ≤ w.clock) : waitUntil w time = w := by
  rw [waitUntil, max_eq_left past]

theorem clock_waitUntil {time : Duration} (later : w.clock ≤ time) : (waitUntil w time).clock = time :=
  max_eq_right later

theorem Endures.of_poll {r : Request} {wait wait₁ : r.Wait} {w₁ : World} {a : r.Answer}
    (same : r.poll wait w = r.poll wait₁ w₁) (rest : r.Endures w₁ wait₁ w' a) : r.Endures w wait w' a := by
  cases rest with
  | answered polled => exact .answered (same.trans polled)
  | waits polled idles rest => exact .waits (same.trans polled) idles rest

/-- Whoever cannot be answered before a moment waits for it, or it has come; a poll before changes nothing for the
next one. -/
theorem Endures.past {r : Request} {wait : r.Wait} {a : r.Answer} (time : Duration)
    (rest : r.Endures (waitUntil w time) wait w' a)
    (early : w.clock < time → ∃ wait₁, r.poll wait w = (w, .waiting wait₁) ∧
      r.poll wait (waitUntil w time) = r.poll wait₁ (waitUntil w time)) : r.Endures w wait w' a := by
  by_cases past : time ≤ w.clock
  · rwa [waitUntil_of_le past] at rest
  · obtain ⟨wait₁, waits, same⟩ := early (lt_of_not_le past)
    exact .waits waits (idles_waitUntil w time) (rest.of_poll same.symm)

theorem Endures.until {r : Request} {wait : r.Wait} {a : r.Answer} (time : Duration)
    (early : w.clock < time → r.poll wait w = (w, .waiting wait))
    (rest : r.Endures (waitUntil w time) wait w' a) : r.Endures w wait w' a :=
  .past time rest fun before => ⟨wait, early before, rfl⟩

/-! ### Slots and turns -/

/-- A claim on a slot that nobody has is granted. -/
theorem pollClaim_alone (coherent : w.engine.tracker.Coherent) (free : ∀ id, w.engine.tracker.queues id = [])
    {c : Claim} (made : (claim w ticket rule mode).2 = some c) :
    pollClaim (claim w ticket rule mode).1 c =
      ((claim w ticket rule mode).1.onTracker (·.take c), .granted c.slot) := by
  have spec := Tracker.request_spec coherent ticket rule mode
  obtain ⟨named, -, -, -, found⟩ := spec.claimed made
  have queue : (claim w ticket rule mode).1.engine.tracker.queues c.slot = [ticket] := by
    have queues := spec.queues
    rw [show (w.engine.tracker.request ticket rule mode).2 = some c from made, Option.elim_some] at queues
    refine (congrFun queues c.slot).trans ?_
    rw [update_self, free, List.nil_append]
  have holds : (claim w ticket rule mode).1.engine.tracker.holds c.slot c.ticket = true := by
    rw [Tracker.holds, show ((claim w ticket rule mode).1.engine.tracker.slot c.slot).queue = [ticket] from queue, named]
    exact decide_eq_true rfl
  have attached : ((claim w ticket rule mode).1.engine.tracker.slot c.slot).detached = false :=
    spec.shifts.coherent.attached found
  rw [pollClaim]
  simp only [holds, attached, Bool.not_true, Bool.not_false, Bool.false_eq_true, if_false, if_true]

theorem endures_slot (coherent : w.engine.tracker.Coherent) (free : ∀ id, w.engine.tracker.queues id = [])
    (rule : RuleId) (ticket : Ticket) :
    (slot rule).Endures (start (.slot rule) ticket w).1 (start (.slot rule) ticket w).2
      (settle (.slot rule) ticket w).1.moved (settle (.slot rule) ticket w).2 := by
  cases made : (claim w ticket rule .create).2 with
  | none => exact absurd ((Tracker.request_spec coherent ticket rule .create).absent made).1 (by simp)
  | some c =>
    have granted := pollClaim_alone coherent free made
    have asked : claim w ticket rule .create = ((claim w ticket rule .create).1, some c) := Prod.ext rfl made
    rw [start, settle, takeSlot, asked]
    refine .answered ?_
    rw [poll, granted]
    rfl

theorem endures_existingSlot (coherent : w.engine.tracker.Coherent) (free : ∀ id, w.engine.tracker.queues id = [])
    (rule : RuleId) (ticket : Ticket) :
    (existingSlot rule).Endures (start (.existingSlot rule) ticket w).1 (start (.existingSlot rule) ticket w).2
      (settle (.existingSlot rule) ticket w).1.moved (settle (.existingSlot rule) ticket w).2 := by
  rw [start, settle, takeSlot]
  cases made : (claim w ticket rule .existing).2 with
  | none =>
    have asked : claim w ticket rule .existing = ((claim w ticket rule .existing).1, none) := Prod.ext rfl made
    rw [asked]
    exact .answered rfl
  | some c =>
    have granted := pollClaim_alone coherent free made
    have asked : claim w ticket rule .existing = ((claim w ticket rule .existing).1, some c) := Prod.ext rfl made
    rw [asked]
    refine .answered ?_
    rw [poll, granted]
    rfl

theorem endures_knownSlot (free : ∀ id, w.engine.tracker.queues id = []) (id : SlotId) (ticket : Ticket) :
    (knownSlot id).Endures (start (.knownSlot id) ticket w).1 (start (.knownSlot id) ticket w).2
      (settle (.knownSlot id) ticket w).1.moved (settle (.knownSlot id) ticket w).2 := by
  rw [start, settle]
  cases there : w.engine.tracker.slots.contains id with
  | false =>
    refine .answered ?_
    simp only [Bool.false_eq_true, if_false, poll, there, Bool.not_false, if_true]
    rfl
  | true =>
    let joined := w.onTracker (·.join id ticket)
    have queue : joined.engine.tracker.queues id = [ticket] := by
      refine (congrFun (Tracker.queues_join w.engine.tracker id ticket) id).trans ?_
      rw [update_self, free, List.nil_append]
    have holds : joined.engine.tracker.holds id ticket = true := by
      rw [Tracker.holds, show (joined.engine.tracker.slot id).queue = [ticket] from queue]
      exact decide_eq_true rfl
    have still : joined.engine.tracker.slots.contains id = true := by
      rw [Std.TreeMap.contains_eq_isSome_getElem?]
      exact congrArg Option.isSome (Tracker.get_join w.engine.tracker id ticket)
    refine .answered ?_
    simp only [if_true, Bool.not_true, Bool.false_eq_true, if_false, poll]
    rw [show (w.onTracker (·.join id ticket)) = joined from rfl, still, holds]
    simp only [Bool.not_true, Bool.false_eq_true, if_false, if_true]
    split <;> rfl

theorem endures_refreshTurn (free : w.turns = []) (ticket : Ticket) :
    refreshTurn.Endures (start .refreshTurn ticket w).1 (start .refreshTurn ticket w).2
      (settle .refreshTurn ticket w).1.moved (settle .refreshTurn ticket w).2 := by
  refine .answered ?_
  have first : (start .refreshTurn ticket w).1.engine.rules.turns.head? = some (start .refreshTurn ticket w).2 := by
    change (w.turns ++ [ticket]).head? = some ticket
    rw [free]
    rfl
  rw [poll, if_pos first]
  rfl

/-! ### Rules -/

theorem endures_fetch (w : World) (ticket : Ticket) :
    fetch.Endures (start .fetch ticket w).1 (start .fetch ticket w).2 (settle .fetch ticket w).1.moved
      (settle .fetch ticket w).2 := by
  let asked : World := { w with source := { w.source with fetches := w.source.fetches + 1 } }
  let readyAt := w.clock + w.source.delay
  let ready := waitUntil asked readyAt
  have past : ¬ ready.clock < readyAt := Nat.not_lt_of_le (le_max_right asked.clock readyAt)
  change fetch.Endures asked { readyAt } _ _
  refine Endures.until readyAt (fun early => ?_) ?_
  · rw [poll, if_pos early]
  · change fetch.Endures ready _ _ _
    cases reads : asked.source.readsFile with
    | false =>
      refine .answered ?_
      have settled : (settle .fetch ticket w).1 = ready :=
        congrArg (fun n => { ready with lulls := w.lulls + Bool.toNat n }) reads
      rw [poll, if_neg past, settled]
      simp only [show ready.source.readsFile = false from reads, Bool.false_eq_true, if_false]
      rfl
    | true =>
      -- The file is read in a lull.
      let read : World := { ready with lulls := ready.lulls + 1 }
      have settled : (settle .fetch ticket w).1 = read :=
        congrArg (fun n => { ready with lulls := w.lulls + Bool.toNat n }) reads
      have served : ready.source.contents.rules = ready.source.fetch := by
        have reads : ready.source.readsFile = true := reads
        rw [RuleSource.fetch]
        rw [RuleSource.readsFile] at reads
        split at reads
        · next none _ => rw [none]
        · exact absurd reads Bool.false_ne_true
      have begins : fetch.poll ({ readyAt } : Fetching) ready =
          (ready, .waiting ({ readyAt, lulls := some ready.lulls } : Fetching)) := by
        rw [poll, if_neg past]
        simp only [show ready.source.readsFile = true from reads, if_true]
      have lull : ready.Idles read := ⟨_, _, Nat.le_refl _, Nat.le_succ _, rfl⟩
      refine .waits begins lull (.answered ?_)
      rw [poll, if_neg (show ¬ read.clock < readyAt from past)]
      simp only [show ready.lulls < read.lulls from Nat.lt_succ_self _, if_true]
      rw [settled]
      exact congrArg (fun a => (read.moved, Progress.answered a)) served

/-! ### Calls to the sink -/

section Flights

variable {α : Type} {f : Flight α} {a : α}

theorem poll_of_acted (call : Sink → Deed → Sink × α) (acted : f.answer = some a) : f.poll w call = (w, f) := by
  rw [Flight.poll, acted]

theorem poll_of_early (call : Sink → Deed → Sink × α) (early : w.clock < f.actsAt) : f.poll w call = (w, f) := by
  rw [Flight.poll]
  split
  · rfl
  · rw [if_neg (not_le_of_lt early)]

theorem poll_of_due (call : Sink → Deed → Sink × α) (waits : f.answer = none) (due : f.actsAt ≤ w.clock) :
    f.poll w call = ({ w with sink := (call w.sink f.act.deed).1 },
      { f with answer := some (call w.sink f.act.deed).2 }) := by
  rw [Flight.poll, waits]
  exact if_pos due

theorem result?_of_waiting (waits : f.answer = none) (now : Duration) : f.result? now = none := by
  rw [Flight.result?, waits, ite_self]

end Flights

theorem endures_findAll (w : World) (ticket : Ticket) :
    findAll.Endures (start .findAll ticket w).1 (start .findAll ticket w).2 (settle .findAll ticket w).1.moved
      (settle .findAll ticket w).2 := by
  let act := w.sink.startFindAll.2
  let asked : World := { w with sink := w.sink.startFindAll.1 }
  let flight : Flight (Except SinkError (List Alert)) := { act, start := w.clock }
  let due := waitUntil asked flight.actsAt
  let acted : World := { due with sink := (due.sink.listOpen act.deed).1 }
  let answered : Flight (Except SinkError (List Alert)) := { flight with answer := some (due.sink.listOpen act.deed).2 }
  have acts : flight.actsAt ≤ due.clock := le_max_right ..
  have moment : due.clock = flight.actsAt := clock_waitUntil (Nat.le_add_right ..)
  have settled : settle .findAll ticket w = (waitUntil acted answered.answersAt, (due.sink.listOpen act.deed).2) := by
    change (waitUntil acted (due.clock + act.after), _) = _
    rw [moment]
    rfl
  rw [settled]
  change findAll.Endures asked flight _ _
  refine Endures.until flight.actsAt (fun early => ?_) ?_
  · rw [poll, poll_of_early _ early]
    simp only [result?_of_waiting (show flight.answer = none from rfl)]
  · -- The call acts; from then on its answer is awaited.
    have awaited : findAll.Endures acted answered (waitUntil acted answered.answersAt).moved
        (due.sink.listOpen act.deed).2 := by
      refine Endures.until answered.answersAt (fun early => ?_) (.answered ?_)
      · simp only [poll, poll_of_acted _ (show answered.answer = _ from rfl), Flight.result?,
          if_neg (not_le_of_lt early)]
      · have there : answered.answersAt ≤ (waitUntil acted answered.answersAt).clock := le_max_right ..
        simp only [poll, poll_of_acted _ (show answered.answer = _ from rfl), Flight.result?, if_pos there]
        rfl
    refine awaited.of_poll ?_
    simp only [poll]
    rw [poll_of_due _ rfl acts, poll_of_acted _ (show answered.answer = _ from rfl)]

theorem poll_deliver {flight flight₁ : Flight (Except SinkError Unit)} {limit : Duration} {w₁ : World}
    (flown : (flight.poll w fun sink deed => sink.deliver deed event) = (w₁, flight₁)) :
    poll (.deliver event) (flight, limit) w =
      match flight₁.result? w₁.clock with
      | some a => answer (.deliver event) (w₁.note (.answered event a)) a
      | none =>
        if flight₁.start + limit ≤ w₁.clock then
          let a := .error (.timeout limit)
          answer (.deliver event) (w₁.note (.answered event a)) a
        else (w₁, .waiting (flight₁, limit)) := by
  rw [poll]
  generalize flight.poll w (fun sink deed => sink.deliver deed event) = flown' at flown
  cases flown
  rfl

theorem poll_deliver_waits {flight : Flight (Except SinkError Unit)} {limit : Duration}
    (still : (flight.poll w fun sink deed => sink.deliver deed event) = (w, flight))
    (none : flight.result? w.clock = none) (early : w.clock < flight.start + limit) :
    poll (.deliver event) (flight, limit) w = (w, .waiting (flight, limit)) := by
  rw [poll_deliver still, none]
  exact if_neg (not_le_of_lt early)

/-- When the limit has passed and no answer is there the delivery counts as timed out. -/
theorem endures_timeout {flight : Flight (Except SinkError Unit)} {limit : Duration}
    (soon : w.clock ≤ flight.start + limit) (late : flight.start + limit < flight.answersAt)
    (still : ∀ w : World, w.clock ≤ flight.start + limit →
      (flight.poll w fun sink deed => sink.deliver deed event) = (w, flight)) :
    let timeout : Except SinkError Unit := .error (.timeout limit)
    (deliver event).Endures w (flight, limit)
      ((waitUntil w (flight.start + limit)).note (.answered event timeout)).moved timeout := by
  intro timeout
  have none (clock : Duration) (there : clock ≤ flight.start + limit) : flight.result? clock = none :=
    if_neg (not_le_of_lt (Nat.lt_of_le_of_lt there late))
  refine Endures.until (flight.start + limit) (fun early => ?_) (.answered ?_)
  · exact poll_deliver_waits (still w (Nat.le_of_lt early)) (none _ (Nat.le_of_lt early)) early
  · have moment : (waitUntil w (flight.start + limit)).clock = flight.start + limit := clock_waitUntil soon
    have at_limit := still _ (Nat.le_of_eq (congrArg Duration.nanos moment))
    rw [poll_deliver at_limit, none _ (Nat.le_of_eq (congrArg Duration.nanos moment))]
    exact if_pos (Nat.le_of_eq (congrArg Duration.nanos moment.symm))

/-- An answer that came within the limit counts. -/
theorem endures_answered {flight : Flight (Except SinkError Unit)} {limit : Duration} {a : Except SinkError Unit}
    (acted : flight.answer = some a) (in_time : flight.answersAt ≤ flight.start + limit) :
    (deliver event).Endures w (flight, limit)
      ((waitUntil w flight.answersAt).note (.answered event a)).moved a := by
  refine Endures.until flight.answersAt (fun early => ?_) (.answered ?_)
  · exact poll_deliver_waits (poll_of_acted _ acted) (if_neg (not_le_of_lt early))
      (Nat.lt_of_lt_of_le early in_time)
  · have there : flight.answersAt ≤ (waitUntil w flight.answersAt).clock := le_max_right ..
    rw [poll_deliver (poll_of_acted _ acted), Flight.result?, if_pos there, acted]
    rfl

theorem endures_deliver (w : World) (event : Event) (ticket : Ticket) :
    (deliver event).Endures (start (.deliver event) ticket w).1 (start (.deliver event) ticket w).2
      (settle (.deliver event) ticket w).1.moved (settle (.deliver event) ticket w).2 := by
  let limit := w.engine.sinkTimeout
  let act := (w.sink.startDelivery event).2
  let asked : World := { w with sink := (w.sink.startDelivery event).1 }.note (.sent event)
  let flight : Flight (Except SinkError Unit) := { act, start := w.clock }
  have start_le (span : Duration) : asked.clock ≤ w.clock + span := Nat.le_add_right ..
  change (deliver event).Endures asked (flight, limit) (send w event).1.moved (send w event).2
  by_cases acts : act.before ≤ limit
  · -- The call acts; whether its answer counts is a matter of when it comes.
    let due := waitUntil asked flight.actsAt
    let acted : World := { due with sink := (due.sink.deliver act.deed event).1 }
    let answer := (due.sink.deliver act.deed event).2
    let answered : Flight (Except SinkError Unit) := { flight with answer := some answer }
    have in_time : flight.actsAt ≤ w.clock + limit := Nat.add_le_add_left acts _
    have moment : due.clock = flight.actsAt := clock_waitUntil (start_le _)
    have reached : flight.actsAt ≤ due.clock := Nat.le_of_eq (congrArg Duration.nanos moment.symm)
    have still (w : World) : (answered.poll w fun sink deed => sink.deliver deed event) = (w, answered) :=
      poll_of_acted _ rfl
    have acting : (deliver event).poll (flight, limit) due = (deliver event).poll (answered, limit) acted := by
      rw [poll_deliver (poll_of_due _ rfl reached), poll_deliver (still acted)]
    refine Endures.until flight.actsAt (fun early => ?_) (.of_poll acting ?_)
    · exact poll_deliver_waits (poll_of_early _ early) (result?_of_waiting rfl _) (Nat.lt_of_lt_of_le early in_time)
    · by_cases ends : act.before + act.after ≤ limit
      · have sent : send w event = ((waitUntil acted answered.answersAt).note (.answered event answer), answer) := by
          have after : answered.answersAt = due.clock + act.after := congrArg (· + act.after) moment.symm
          rw [after]
          simp only [send]
          rw [if_pos acts, if_pos ends]
          rfl
        rw [sent]
        exact endures_answered rfl (Nat.le_trans (Nat.le_of_eq (Nat.add_assoc ..)) (Nat.add_le_add_left ends _))
      · have sent : send w event = ((waitUntil acted (answered.start + limit)).note
            (.answered event (.error (.timeout limit))), .error (.timeout limit)) := by
          simp only [send]
          rw [if_pos acts, if_neg ends]
          rfl
        rw [sent]
        refine endures_timeout ?_ ?_ fun clock _ => poll_of_acted _ rfl
        · exact Nat.le_trans (Nat.le_of_eq (congrArg Duration.nanos moment)) in_time
        · exact Nat.lt_of_lt_of_eq (Nat.add_lt_add_left (Nat.lt_of_not_le ends) _) (Nat.add_assoc ..).symm
  · have late : flight.start + limit < flight.actsAt := Nat.add_lt_add_left (Nat.lt_of_not_le acts) _
    have sent : send w event = ((waitUntil asked (flight.start + limit)).note
        (.answered event (.error (.timeout limit))), .error (.timeout limit)) := by
      simp only [send]
      rw [if_neg acts]
      rfl
    rw [sent]
    refine endures_timeout (start_le limit) (Nat.lt_of_lt_of_le late (Nat.le_add_right ..)) fun w there => ?_
    exact poll_of_early _ (Nat.lt_of_le_of_lt there late)

/-! Look-ups do not change the sink, so that it does not matter when they act. -/

def glance (w : World) (f : RuleId × Flight (Except SinkError (Option Alert))) :
    RuleId × Flight (Except SinkError (Option Alert)) :=
  (f.1, (f.2.poll w fun sink deed => sink.lookUp deed f.1).2)

theorem pollLookups_glance (w : World) (flights : List (RuleId × Flight (Except SinkError (Option Alert)))) :
    pollLookups w flights = (w, flights.map (glance w)) := by
  induction flights with
  | nil => rfl
  | cons f rest ih =>
    have same : (f.2.poll w fun sink deed => sink.lookUp deed f.1).1 = w :=
      f.2.poll_of_reading w _ fun deed => (w.sink.query_cases ..).1
    rw [pollLookups, Prod.ext (y := (w, (glance w f).2)) same rfl]
    dsimp only
    rw [ih]
    rfl

theorem glance_glance (f : RuleId × Flight (Except SinkError (Option Alert))) (sink : w'.sink = w.sink)
    (later : w.clock ≤ w'.clock) : glance w' (glance w f) = glance w' f := by
  obtain ⟨rule, flight⟩ := f
  cases acted : flight.answer with
  | some a => rw [show glance w (rule, flight) = (rule, flight) from
      congrArg (Prod.mk rule ·.2) (poll_of_acted _ acted)]
  | none =>
    rcases Decidable.em (flight.actsAt ≤ w.clock) with acts | early
    · have first := poll_of_due (w := w) (fun sink deed => sink.lookUp deed rule) acted acts
      have then_ := poll_of_due (w := w') (fun sink deed => sink.lookUp deed rule) acted (Nat.le_trans acts later)
      simp only [glance, first, then_, sink]
      rw [poll_of_acted (a := _) _ rfl]
    · rw [show glance w (rule, flight) = (rule, flight) from
        congrArg (Prod.mk rule ·.2) (poll_of_early _ (lt_of_not_le early))]

theorem answersAt_glance (w : World) (f : RuleId × Flight (Except SinkError (Option Alert))) :
    (glance w f).2.answersAt = f.2.answersAt := by
  rw [glance, Flight.poll]
  split
  · rfl
  · split <;> rfl

theorem poll_findOpen_waits {rules : List RuleId} {flights : (findOpen rules).Wait}
    {f : RuleId × Flight (Except SinkError (Option Alert))} (mem : f ∈ flights) (early : w.clock < f.2.answersAt) :
    poll (.findOpen rules) flights w = (w, .waiting (flights.map (glance w))) := by
  have none : (glance w f).2.result? w.clock = none :=
    if_neg (not_le_of_lt ((answersAt_glance w f).symm ▸ early))
  simp only [poll, pollLookups_glance]
  rw [mapM_eq_none (List.mem_map_of_mem mem) none]

/-! A look-up that is under way acts by the time at which all of them have acted, and is answered by the time at which
all of them are. -/

section LookUps

variable {flights : List (RuleId × Flight (Except SinkError (Option Alert)))}
  {f : RuleId × Flight (Except SinkError (Option Alert))}

def due (w : World) (flights : List (RuleId × Flight (Except SinkError (Option Alert)))) : World :=
  waitUntil w (latest w.clock (flights.map (·.2.actsAt)))

def last (w : World) (flights : List (RuleId × Flight (Except SinkError (Option Alert)))) : Duration :=
  latest (due w flights).clock (flights.map (·.2.answersAt))

def lookedUp (w : World) (f : RuleId × Flight (Except SinkError (Option Alert))) : Except SinkError (Option Alert) :=
  (w.sink.lookUp f.2.act.deed f.1).2

theorem actsAt_le_due (mem : f ∈ flights) : f.2.actsAt ≤ (due w flights).clock :=
  Nat.le_trans (le_latest_of_mem w.clock (List.mem_map.mpr ⟨f, mem, rfl⟩)) (le_max_right w.clock _)

theorem due_le_last : (due w flights).clock ≤ last w flights :=
  le_latest ..

theorem answersAt_le_last (mem : f ∈ flights) : f.2.answersAt ≤ last w flights :=
  le_latest_of_mem _ (List.mem_map.mpr ⟨f, mem, rfl⟩)

theorem glance_of_due (w w' : World) (sink : w'.sink = w.sink) (passed : (due w flights).clock ≤ w'.clock) (mem : f ∈ flights)
    (begun : f.2.answer = none) : glance w' f = (f.1, { f.2 with answer := some (lookedUp w f) }) := by
  rw [glance, poll_of_due _ begun (Nat.le_trans (actsAt_le_due mem) passed), sink]
  rfl

/-- Before the last moment somebody acts or answers later. -/
theorem exists_unanswered (early : w.clock < last w flights) : ∃ f ∈ flights, w.clock < f.2.answersAt := by
  rcases lt_latest early with late | ⟨_, mem, late⟩
  · have late : w.clock < latest w.clock (flights.map (·.2.actsAt)) := by
      by_contra past
      exact Nat.lt_irrefl _ (Nat.lt_of_lt_of_eq late
        (congrArg Duration.nanos (max_eq_left (Nat.le_of_not_lt past))))
    rcases lt_latest late with never | ⟨_, mem, late⟩
    · exact absurd never (Nat.lt_irrefl _)
    · obtain ⟨f, there, rfl⟩ := List.mem_map.mp mem
      exact ⟨f, there, Nat.lt_of_lt_of_le late (Nat.le_add_right ..)⟩
  · obtain ⟨f, there, rfl⟩ := List.mem_map.mp mem
    exact ⟨f, there, late⟩

theorem settle_findOpen {rules : List RuleId} {w₁ : World} (ticket : Ticket)
    (started : startLookups w rules = (w₁, flights)) (begun : ∀ f ∈ flights, f.2.answer = none) :
    settle (.findOpen rules) ticket w = (waitUntil w₁ (last w₁ flights), flights.map (lookedUp w₁)) := by
  have times : (flights.map (glance (due w₁ flights))).map (·.2.answersAt) = flights.map (·.2.answersAt) := by
    rw [List.map_map]
    exact List.map_congr_left fun f _ => answersAt_glance (due w₁ flights) f
  have answers : (flights.map (glance (due w₁ flights))).filterMap (·.2.answer) = flights.map (lookedUp w₁) := by
    rw [List.filterMap_map, ← List.filterMap_eq_map]
    exact List.filterMap_congr fun f mem =>
      congrArg (·.2.answer) (glance_of_due w₁ (due w₁ flights) rfl (Nat.le_refl _) mem (begun f mem))
  have moment : waitUntil (due w₁ flights) (last w₁ flights) = waitUntil w₁ (last w₁ flights) := by
    rw [waitUntil, waitUntil, max_eq_right due_le_last, max_eq_right (Nat.le_trans (le_max_left ..) due_le_last)]
    rfl
  simp only [settle, start, started]
  rw [pollLookups_glance]
  dsimp only
  rw [show waitUntil w₁ (latest w₁.clock (flights.map (·.2.actsAt))) = due w₁ flights from rfl, times, answers]
  exact congrArg (·, flights.map (lookedUp w₁)) moment

end LookUps

theorem endures_findOpen (w : World) (rules : List RuleId) (ticket : Ticket) :
    (findOpen rules).Endures (start (.findOpen rules) ticket w).1 (start (.findOpen rules) ticket w).2
      (settle (.findOpen rules) ticket w).1.moved (settle (.findOpen rules) ticket w).2 := by
  obtain ⟨scripts, asked, started, -, -⟩ := startLookups_eq w rules
  generalize flown : (asked.map fun p => (p.1, ({ act := p.2, start := w.clock } : Flight _))) = flights at started
  have begun : ∀ f ∈ flights, f.2.answer = none := by
    rw [← flown]
    exact List.forall_mem_map.mpr fun _ _ => rfl
  generalize ({ w with sink := { w.sink with findOpen := scripts } } : World) = w₁ at started
  rw [settle_findOpen ticket started begun, start, started]
  refine Endures.past (last w₁ flights) (.answered ?_) fun early => ⟨flights.map (glance w₁), ?_, ?_⟩
  · have there : last w₁ flights ≤ (waitUntil w₁ (last w₁ flights)).clock := le_max_right ..
    have all : (flights.map (glance (waitUntil w₁ (last w₁ flights)))).mapM
        (·.2.result? (waitUntil w₁ (last w₁ flights)).clock) = some (flights.map (lookedUp w₁)) := by
      rw [List.mapM_map]
      refine mapM_eq_some fun f mem => ?_
      have acted := glance_of_due w₁ (waitUntil w₁ (last w₁ flights)) rfl (Nat.le_trans due_le_last there) mem
        (begun f mem)
      rw [comp_apply, acted]
      exact if_pos (Nat.le_trans (answersAt_le_last mem) there)
    simp only [poll, pollLookups_glance]
    rw [all]
    rfl
  · obtain ⟨f, mem, late⟩ := exists_unanswered early
    exact poll_findOpen_waits mem late
  · simp only [poll, pollLookups_glance, List.map_map]
    have same : glance (waitUntil w₁ (last w₁ flights)) ∘ glance w₁ = glance (waitUntil w₁ (last w₁ flights)) :=
      funext fun f => glance_glance f rfl (le_max_left ..)
    rw [same]

theorem endures_sleep (w : World) (span : Duration) (ticket : Ticket) :
    (sleep span).Endures (start (.sleep span) ticket w).1 (start (.sleep span) ticket w).2
      (settle (.sleep span) ticket w).1.moved (settle (.sleep span) ticket w).2 := by
  change (sleep span).Endures w (w.clock + span) (waitUntil w (w.clock + span)).moved ()
  refine Endures.until (w.clock + span) (fun early => ?_) (.answered ?_)
  · exact if_neg (not_le_of_lt early)
  · exact if_pos (show w.clock + span ≤ (waitUntil w (w.clock + span)).clock from le_max_right ..)

end Request

end Answers

end ThresholdAlerts
