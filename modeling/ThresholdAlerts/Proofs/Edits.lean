import ThresholdAlerts.Engine.Step
import ThresholdAlerts.Proofs.Accounts
/-! Edits: what a program does to the world while it holds a slot. Main statement: every edit is a turn on
the account of its rule; it changes no other account and takes no place in a queue from anybody. -/
namespace ThresholdAlerts

/-! ### Edits of the world -/

/-- One step of a program that holds slot `id` of `rule`. -/
inductive Edit (regime : Regime) (rule : RuleId) (id : SlotId) :
    World → Work → World → Option Work → Prop
  | change {w todo} (c : FiringState.Change) (serves : regime ≠ .recovering)
      (suits : c.Suits rule true) :
      Edit regime rule id w { todo } (w.change id c).1
        (some { todo := todo ++ (w.change id c).2.toList })
  | transition {w todo r} (breached : Bool) (value : Float) (time : Timestamp)
      (serves : regime ≠ .recovering) (known : w.rule? rule = some r)
      (kept : (w.slot id).retired = false) (judged : r.breaches value = .ok breached) :
      Edit regime rule id w { todo } (w.transition id r breached value time).1
        (some { todo := todo ++ (w.transition id r breached value time).2.toList })
  | retire {w todo} (spent : (w.slot id).state.isOpen = false ∨
        regime ≠ .serving ∧ (regime = .recovering → w.rule? rule = none)) :
      Edit regime rule id w { todo } (w.onTracker (·.retire id)) (some { todo })
  | seed {w} (alertId : AlertId) (recovers : regime ≠ .serving)
      (known : regime = .recovering → ∃ r, w.rule? rule = some r)
      (kept : (w.slot id).retired = false) :
      Edit regime rule id w {} (w.onTracker fun t => (t.seed id alertId).1) (some {})
  | hand {w event todo} :
      Edit regime rule id w { todo := event :: todo } (w.hand event)
        (some { todo, stage := .handed event })
  | handStray {w event} (recovers : regime ≠ .serving) (named : event.ruleId = rule)
      (ends : event.isOpened = false) :
      Edit regime rule id w {} (w.hand event) (some { stage := .handed event })
  | queueBehind {w event todo} (waits : (w.slot id).outbox ≠ []) :
      Edit regime rule id w { todo, stage := .handed event } (w.queueBehind id event)
        (some { todo })
  | firstFailure {w event error todo} (empty : (w.slot id).outbox = []) :
      Edit regime rule id w { todo, stage := .failed event error } (w.firstFailure id event error)
        (some { todo })
  | delivered {w front rest} (due : (w.slot id).outbox = front :: rest) :
      Edit regime rule id w { stage := .accepted } (w.delivered id front rest) (some { stage := .draining })
  | failedAgain {w front rest error} (due : (w.slot id).outbox = front :: rest) :
      Edit regime rule id w { stage := .refused error } (w.failedAgain id front rest error).1
        (some { stage := .draining })
  | drains {w} : Edit regime rule id w {} w (some { stage := .draining })
  | drained {w} (waits : (w.slot id).outbox ≠ []) (tried : ∀ front ∈ (w.slot id).outbox.head?, 0 < front.failures) :
      Edit regime rule id w { stage := .draining } w (some {})
  | unmark {w} (empty : (w.slot id).outbox = []) :
      Edit regime rule id w { stage := .draining } (w.onTracker (·.unmarkBacklogged rule)) (some {})
  | leave {w} (tidy : (w.slot id).Tidy) : Edit regime rule id w {} (w.leave id) none
  | release {w} : Edit regime rule id w {} (w.release id) none

/-- What happens under slot `id` of `rule`: somebody takes it, edits, and sends events. -/
inductive Happens (regime : Regime) (rule : RuleId) (id : SlotId) :
    World → Option Work → World → Option Work → Prop
  | taken {w c} (here : c.slot = id) :
      Happens regime rule id w none (w.onTracker (·.take c)) (some {})
  | edit {w work w' work'} (edit : Edit regime rule id w work w' work') :
      Happens regime rule id w (some work) w' work'
  | sent {w event todo} (start : Duration) (empty : (w.slot id).outbox = []) :
      Happens regime rule id w (some { todo, stage := .handed event })
        ({ w with sink := (w.sink.startDelivery event).1 }.note (.sent event))
        (some { todo, stage := .sending event { act := (w.sink.startDelivery event).2, start } })
  | resent {w front rest} (start : Duration) (due : (w.slot id).outbox = front :: rest)
      (ripe : front.isDue w.clock = true) :
      Happens regime rule id w (some { stage := .draining })
        ({ w with sink := (w.sink.startDelivery front.event).1 }.note (.sent front.event))
        (some { stage := .retrying { act := (w.sink.startDelivery front.event).2, start } })
  | acted {w event todo flight} (waits : flight.answer = none) :
      Happens regime rule id w (some { todo, stage := .sending event flight })
        { w with sink := (w.sink.deliver flight.act.deed event).1 }
        (some { todo, stage := .sending event (flight.answered
          (w.sink.deliver flight.act.deed event).2) })
  | actedAgain {w front rest flight} (due : (w.slot id).outbox = front :: rest)
      (waits : flight.answer = none) :
      Happens regime rule id w (some { stage := .retrying flight })
        { w with sink := (w.sink.deliver flight.act.deed front.event).1 }
        (some { stage := .retrying (flight.answered
          (w.sink.deliver flight.act.deed front.event).2) })
  | accepted {w event todo flight} (done : flight.answer = some (.ok ())) :
      Happens regime rule id w (some { todo, stage := .sending event flight })
        (w.note (.answered event (.ok ()))) (some { todo })
  | refused {w event todo flight} (error : SinkError) :
      Happens regime rule id w (some { todo, stage := .sending event flight })
        (w.note (.answered event (.error error))) (some { todo, stage := .failed event error })
  | acceptedAgain {w front rest flight} (due : (w.slot id).outbox = front :: rest)
      (done : flight.answer = some (.ok ())) :
      Happens regime rule id w (some { stage := .retrying flight })
        (w.note (.answered front.event (.ok ()))) (some { stage := .accepted })
  | refusedAgain {w front rest flight} (due : (w.slot id).outbox = front :: rest)
      (error : SinkError) :
      Happens regime rule id w (some { stage := .retrying flight })
        (w.note (.answered front.event (.error error))) (some { stage := .refused error })

/-! ### What an edit leaves alone -/

/-- The world changes in slot `id` alone, and `news` is what happened. -/
structure World.Alters (id : SlotId) (news : List Happening) (w w' : World) : Prop where
  rewrites : w.engine.tracker.Rewrites id w'.engine.tracker
  journal : w'.journal = news ++ w.journal
  rules : w'.engine.rules = w.engine.rules
  moves : w'.moves = w.moves

namespace World

variable {w w' w₁ w₂ w₃ : World} {id : SlotId} {news news' : List Happening} {rule : RuleId}

theorem Alters.refl (id : SlotId) (w : World) : w.Alters id [] w :=
  ⟨.refl id _, rfl, rfl, rfl⟩

theorem Alters.trans (h : w₁.Alters id news w₂) (h' : w₂.Alters id news' w₃) :
    w₁.Alters id (news' ++ news) w₃ := by
  refine ⟨h.rewrites.trans h'.rewrites, ?_, h'.rules.trans h.rules, h'.moves.trans h.moves⟩
  rw [h'.journal, h.journal, List.append_assoc]

theorem alters_aside (tracker : w'.engine.tracker = w.engine.tracker)
    (journal : w'.journal = news ++ w.journal) (rules : w'.engine.rules = w.engine.rules)
    (moves : w'.moves = w.moves) : w.Alters id news w' :=
  ⟨tracker ▸ .refl id _, journal, rules, moves⟩

theorem alters_onTracker {f : Tracker → Tracker}
    (rewrites : w.engine.tracker.Rewrites id (f w.engine.tracker)) :
    w.Alters id [] (w.onTracker f) :=
  ⟨rewrites, rfl, rfl, rfl⟩

theorem alters_count (w : World) (id : SlotId) (c : Stats.Count) : w.Alters id [] (w.count c) :=
  alters_aside rfl rfl rfl rfl

theorem alters_note (w : World) (id : SlotId) (h : Happening) : w.Alters id [h] (w.note h) :=
  alters_aside rfl rfl rfl rfl

theorem alters_abandon (w : World) (id : SlotId) (event : Event) (attempts : Nat)
    (error : SinkError) : w.Alters id [.abandoned event attempts] (w.abandon event attempts error) := by
  apply alters_aside <;> simp only [abandon, readCalendar, count, note, onEngine, List.cons_append,
    List.nil_append]

theorem alters_setOutbox (w : World) (id : SlotId) (outbox : Outbox) :
    w.Alters id [] (w.onTracker (·.setOutbox id outbox)) :=
  alters_onTracker (Tracker.rewrites_setOutbox _ id outbox)

theorem rewrites_markBacklogged (t : Tracker) (id : SlotId) (rule : RuleId) :
    t.Rewrites id (t.markBacklogged rule) :=
  ⟨rfl, rfl, fun _ => rfl, fun got => ⟨_, got, rfl, rfl, rfl, rfl⟩⟩

theorem rewrites_unmarkBacklogged (t : Tracker) (id : SlotId) (rule : RuleId) :
    t.Rewrites id (t.unmarkBacklogged rule) :=
  ⟨rfl, rfl, fun _ => rfl, fun got => ⟨_, got, rfl, rfl, rfl, rfl⟩⟩

theorem account_of_find (found : w.engine.tracker.find? rule = some id) :
    w.account rule =
      { state := (w.slot id).state
        outbox := (w.slot id).outbox
        retired := (w.slot id).retired
        past := w.journal.filter (·.ruleId = rule) } := by
  rw [account, Tracker.slotFor_of_find found]
  rfl

theorem Alters.account (h : w.Alters id news w')
    (found : w.engine.tracker.find? rule = some id) (named : ∀ n ∈ news, n.ruleId = rule) :
    w'.account rule =
      { state := (w'.slot id).state
        outbox := (w'.slot id).outbox
        retired := (w'.slot id).retired
        past := news ++ (w.account rule).past } := by
  have all : news.filter (·.ruleId = rule) = news := by
    rw [List.filter_eq_self]
    simpa using named
  rw [account_of_find ((h.rewrites.find? rule).trans found), h.journal, List.filter_append, all]
  rfl

theorem Alters.account_other (h : w.Alters id news w') (c : w.engine.tracker.Coherent)
    (found : w.engine.tracker.find? rule = some id) (named : ∀ n ∈ news, n.ruleId = rule)
    {rule' : RuleId} (ne : rule' ≠ rule) : w'.account rule' = w.account rule' := by
  have none : news.filter (·.ruleId = rule') = [] := by
    rw [List.filter_eq_nil_iff]
    intro n mem same
    exact ne ((of_decide_eq_true same).symm.trans (named n mem))
  rw [World.account, World.account, h.rewrites.slotFor c found ne, h.journal, List.filter_append,
    none, List.nil_append]

/-! ### Each edit -/

theorem slot_markBacklogged (w : World) (id : SlotId) (rule : RuleId) :
    (w.onTracker (·.markBacklogged rule)).slot id = w.slot id := rfl

theorem slot_setOutbox (t : Tracker) (id : SlotId) (outbox : Outbox) :
    (t.setOutbox id outbox).slot id = { t.slot id with outbox } :=
  Tracker.slot_update t id _

theorem slot_abandon (w : World) (id : SlotId) (event : Event) (attempts : Nat)
    (error : SinkError) : (w.abandon event attempts error).slot id = w.slot id := by
  simp only [abandon, readCalendar, count, note, onEngine, slot]

theorem change_snd (w : World) (id : SlotId) (c : FiringState.Change) :
    (w.change id c).2 = ((w.slot id).state.apply c).2 := by
  simp only [change, Tracker.change, slot]
  split <;> simp_all

theorem slot_change (w : World) (id : SlotId) (c : FiringState.Change) :
    (w.change id c).1.slot id = { w.slot id with state := ((w.slot id).state.apply c).1 } := by
  simp only [change, Tracker.change, slot]
  split <;> exact Tracker.slot_update _ id _

theorem alters_change (c : FiringState.Change) :
    w.Alters id (((w.slot id).state.apply c).2.toList.map .produced) (w.change id c).1 := by
  have state : w.Alters id [] (w.onTracker (·.setState id ((w.slot id).state.apply c).1)) :=
    alters_onTracker (Tracker.rewrites_setState (FiringState.apply_ruleId _ c))
  cases event : ((w.slot id).state.apply c).2 with
  | none =>
      have same : (w.change id c).1 = w.onTracker (·.setState id ((w.slot id).state.apply c).1) := by
        simp only [change, Tracker.change, slot] at event ⊢
        rw [event]
        rfl
      rw [same]
      exact state
  | some e =>
      have same : (w.change id c).1 =
          (w.onTracker (·.setState id ((w.slot id).state.apply c).1)).note (.produced e) := by
        simp only [change, Tracker.change, slot] at event ⊢
        rw [event]
        rfl
      rw [same]
      exact state.trans (alters_note _ id _)

theorem transition_fst (w : World) (id : SlotId) (r : Rule) (breached : Bool) (value : Float)
    (time : Timestamp) : ∃ ids, (w.transition id r breached value time).1 =
      { (w.change id (.transition w.ids.next r breached value time)).1 with ids } := by
  rw [transition]
  split
  next w' event here =>
    rw [here]
    split
    · exact ⟨_, rfl⟩
    · exact ⟨w'.ids, rfl⟩

theorem transition_snd (w : World) (id : SlotId) (r : Rule) (breached : Bool) (value : Float)
    (time : Timestamp) : (w.transition id r breached value time).2 =
      ((w.slot id).state.apply (.transition w.ids.next r breached value time)).2 := by
  rw [← change_snd, transition]
  split
  next w' event here =>
    rw [here]
    split <;> rfl

theorem queueBehind_of_cancelled {event : Event} {d : Delivery}
    (cancels : (w.slot id).outbox.cancelledBy? event = some d) :
    w.queueBehind id event =
      (((w.onTracker (·.setOutbox id (w.slot id).outbox.dropLast)).count .collapsed).note
        (.cancelled d.event event)).onTracker (·.markBacklogged event.ruleId) := by
  simp only [queueBehind, Outbox.enqueue, cancels]

theorem queueBehind_of_full {event : Event}
    (kept : (w.slot id).outbox.cancelledBy? event = none)
    (full : Outbox.capacity ≤ (w.slot id).outbox.length) :
    w.queueBehind id event =
      ((w.onTracker (·.setOutbox id (w.slot id).outbox)).abandon event 0
        (.backlogFull (w.slot id).outbox.length)).onTracker (·.markBacklogged event.ruleId) := by
  simp only [queueBehind, Outbox.enqueue, kept, if_pos full]

theorem queueBehind_of_room {event : Event}
    (kept : (w.slot id).outbox.cancelledBy? event = none)
    (room : (w.slot id).outbox.length < Outbox.capacity) :
    w.queueBehind id event =
      (w.onTracker (·.setOutbox id ((w.slot id).outbox ++ [.queued event w.clock]))).onTracker
        (·.markBacklogged event.ruleId) := by
  simp only [queueBehind, Outbox.enqueue, kept, if_neg (Nat.not_le_of_lt room)]

theorem alters_markBacklogged (w : World) (id : SlotId) (rule : RuleId) :
    w.Alters id [] (w.onTracker (·.markBacklogged rule)) :=
  alters_onTracker (rewrites_markBacklogged _ id rule)

theorem queueBehind_turn {regime : Regime} {event : Event} {todo : List Event}
    (found : w.engine.tracker.find? rule = some id) (named : event.ruleId = rule)
    (waits : (w.slot id).outbox ≠ []) :
    ∃ news, w.Alters id news (w.queueBehind id event) ∧ (∀ n ∈ news, n.ruleId = rule) ∧
      Turn regime rule (w.moment rule (w.queueBehind id event)) (w.account rule)
        (some { todo, stage := .handed event }) ((w.queueBehind id event).account rule) (some { todo }) := by
  have here := account_of_find found
  cases cancels : (w.slot id).outbox.cancelledBy? event with
  | some d =>
      have alters : w.Alters id [.cancelled d.event event] (w.queueBehind id event) := by
        rw [queueBehind_of_cancelled cancels]
        exact (((alters_setOutbox w id _).trans (alters_count _ id _)).trans
          (alters_note _ id _)).trans (alters_markBacklogged _ id _)
      have slot : (w.queueBehind id event).slot id =
          { w.slot id with outbox := (w.slot id).outbox.dropLast } := by
        rw [queueBehind_of_cancelled cancels]
        exact slot_setOutbox w.engine.tracker id _
      have news : ∀ n ∈ [Happening.cancelled d.event event], n.ruleId = rule := by
        simpa [Happening.ruleId] using named
      refine ⟨_, alters, news, ?_⟩
      rw [alters.account found news, slot, here]
      exact .cancelled cancels
  | none =>
      by_cases room : (w.slot id).outbox.length < Outbox.capacity
      · have alters : w.Alters id [] (w.queueBehind id event) := by
          rw [queueBehind_of_room cancels room]
          exact (alters_setOutbox w id _).trans (alters_markBacklogged _ id _)
        have slot : (w.queueBehind id event).slot id =
            { w.slot id with outbox := (w.slot id).outbox ++ [.queued event w.clock] } := by
          rw [queueBehind_of_room cancels room]
          exact slot_setOutbox w.engine.tracker id _
        refine ⟨_, alters, by simp, ?_⟩
        rw [alters.account found (by simp), slot, here]
        exact .queued waits cancels room rfl rfl (Delivery.isDue_queued event w.clock)
      · have full := Nat.le_of_not_lt room
        have alters : w.Alters id [.abandoned event 0] (w.queueBehind id event) := by
          rw [queueBehind_of_full cancels full]
          exact ((alters_setOutbox w id _).trans (alters_abandon _ id _ _ _)).trans
            (alters_markBacklogged _ id _)
        have slot : (w.queueBehind id event).slot id = w.slot id := by
          rw [queueBehind_of_full cancels full, slot_markBacklogged, slot_abandon]
          exact slot_setOutbox w.engine.tracker id _
        have news : ∀ n ∈ [Happening.abandoned event 0], n.ruleId = rule := by
          simpa [Happening.ruleId] using named
        refine ⟨_, alters, news, ?_⟩
        rw [alters.account found news, slot, here]
        exact .overflow cancels full

theorem firstFailure_of_again (id : SlotId) (event : Event) {error : SinkError}
    (again : (w.count .sinkFailure).triesAgain error 1 = true) :
    w.firstFailure id event error =
      ({ w.count .sinkFailure with jitter := w.jitter.advance }.onTracker
        (·.setOutbox id ((w.slot id).outbox ++
          [((w.count .sinkFailure).failDelivery (.queued event w.clock) error).2]))).onTracker
        (·.markBacklogged event.ruleId) := by
  simp only [firstFailure, again, if_true]
  rfl

theorem firstFailure_of_last (id : SlotId) (event : Event) {error : SinkError}
    (last : (w.count .sinkFailure).triesAgain error 1 = false) :
    w.firstFailure id event error = (w.count .sinkFailure).abandon event 1 error := by
  simp only [firstFailure, last, Bool.false_eq_true, if_false]

theorem firstFailure_turn {regime : Regime} {event : Event} {error : SinkError}
    {todo : List Event}
    (found : w.engine.tracker.find? rule = some id) (named : event.ruleId = rule)
    (empty : (w.slot id).outbox = []) :
    ∃ news, w.Alters id news (w.firstFailure id event error) ∧ (∀ n ∈ news, n.ruleId = rule) ∧
      Turn regime rule (w.moment rule (w.firstFailure id event error)) (w.account rule)
        (some { todo, stage := .failed event error }) ((w.firstFailure id event error).account rule)
        (some { todo }) := by
  have here := account_of_find found
  cases again : (w.count .sinkFailure).triesAgain error 1 with
  | true =>
      have same := firstFailure_of_again id event again
      have aside : w.Alters id [] { w.count .sinkFailure with jitter := w.jitter.advance } :=
        alters_aside rfl rfl rfl rfl
      have alters : w.Alters id [] (w.firstFailure id event error) := by
        rw [same]
        exact (aside.trans (alters_setOutbox _ id _)).trans (alters_markBacklogged _ id _)
      have slot : (w.firstFailure id event error).slot id =
          { w.slot id with outbox := (w.slot id).outbox ++
              [((w.count .sinkFailure).failDelivery (.queued event w.clock) error).2] } := by
        rw [same, slot_markBacklogged]
        exact slot_setOutbox w.engine.tracker id _
      rw [empty, List.nil_append] at slot
      refine ⟨_, alters, by simp, ?_⟩
      rw [alters.account found (by simp), slot, here]
      have counted : ((w.count .sinkFailure).failDelivery (.queued event w.clock) error).2.failures = 1 := rfl
      have jitter : (w.firstFailure id event error).jitter = w.jitter.advance := congrArg World.jitter same
      refine .postponed empty rfl counted ⟨?_, w.jitter.next, ?_, rfl⟩
      · rw [counted]
        exact Bool.not_inj (Bool.and_eq_true_iff.mp again).2
      · rw [moment, jitter]
        exact w.jitter.next_mem_drawn
  | false =>
      have same := firstFailure_of_last id event again
      have alters : w.Alters id [.abandoned event 1] (w.firstFailure id event error) := by
        rw [same]
        exact (alters_count w id _).trans (alters_abandon _ id _ _ _)
      have slot : (w.firstFailure id event error).slot id = w.slot id := by
        rw [same, slot_abandon]
        rfl
      have news : ∀ n ∈ [Happening.abandoned event 1], n.ruleId = rule := by
        simpa [Happening.ruleId] using named
      refine ⟨_, alters, news, ?_⟩
      rw [alters.account found news, slot, here]
      exact .dropped empty

theorem failedAgain_of_again {front : Delivery} {error : SinkError} (id : SlotId) (rest : Outbox)
    (again : ((w.count .sinkFailure).failDelivery front error).1.triesAgain error
      ((w.count .sinkFailure).failDelivery front error).2.failures = true) :
    (w.failedAgain id front rest error).1 =
      ((w.count .sinkFailure).failDelivery front error).1.onTracker
        (·.setOutbox id (((w.count .sinkFailure).failDelivery front error).2 :: rest)) := by
  simp only [failedAgain, again, if_true]

theorem failedAgain_of_last {front : Delivery} {error : SinkError} (id : SlotId) (rest : Outbox)
    (last : ((w.count .sinkFailure).failDelivery front error).1.triesAgain error
      ((w.count .sinkFailure).failDelivery front error).2.failures = false) :
    (w.failedAgain id front rest error).1 =
      (((w.count .sinkFailure).failDelivery front error).1.onTracker (·.setOutbox id rest)).abandon front.event
        ((w.count .sinkFailure).failDelivery front error).2.failures error := by
  simp only [failedAgain, last, Bool.false_eq_true, if_false]
  rfl

theorem failedAgain_turn {regime : Regime} {front : Delivery} {rest : Outbox}
    {error : SinkError}
    (found : w.engine.tracker.find? rule = some id) (named : front.event.ruleId = rule)
    (due : (w.slot id).outbox = front :: rest) :
    ∃ news, w.Alters id news (w.failedAgain id front rest error).1 ∧
      (∀ n ∈ news, n.ruleId = rule) ∧
      Turn regime rule (w.moment rule (w.failedAgain id front rest error).1) (w.account rule)
        (some { stage := .refused error }) ((w.failedAgain id front rest error).1.account rule)
        (some { stage := .draining }) := by
  have here := account_of_find found
  have aside : w.Alters id [] ((w.count .sinkFailure).failDelivery front error).1 :=
    alters_aside rfl rfl rfl rfl
  cases again : ((w.count .sinkFailure).failDelivery front error).1.triesAgain error
      ((w.count .sinkFailure).failDelivery front error).2.failures with
  | true =>
      have same := failedAgain_of_again id rest again
      have alters : w.Alters id [] (w.failedAgain id front rest error).1 := by
        rw [same]
        exact aside.trans (alters_setOutbox _ id _)
      have slot : (w.failedAgain id front rest error).1.slot id =
          { w.slot id with outbox := ((w.count .sinkFailure).failDelivery front error).2 :: rest } := by
        rw [same]
        exact slot_setOutbox _ id _
      have jitter : (w.failedAgain id front rest error).1.jitter = w.jitter.advance :=
        congrArg World.jitter same
      refine ⟨_, alters, by simp, ?_⟩
      rw [alters.account found (by simp), slot, here]
      refine .delayed due rfl rfl ⟨?_, w.jitter.next, ?_, rfl⟩
      · exact Bool.not_inj (Bool.and_eq_true_iff.mp again).2
      · rw [moment, jitter]
        exact w.jitter.next_mem_drawn
  | false =>
      have same := failedAgain_of_last id rest again
      have alters : w.Alters id
          [.abandoned front.event ((w.count .sinkFailure).failDelivery front error).2.failures]
          (w.failedAgain id front rest error).1 := by
        rw [same]
        exact (aside.trans (alters_setOutbox _ id _)).trans (alters_abandon _ id _ _ _)
      have slot : (w.failedAgain id front rest error).1.slot id = { w.slot id with outbox := rest } := by
        rw [same, slot_abandon]
        exact slot_setOutbox _ id _
      have news : ∀ n ∈ [Happening.abandoned front.event
          ((w.count .sinkFailure).failDelivery front error).2.failures], n.ruleId = rule := by
        simpa [Happening.ruleId] using named
      refine ⟨_, alters, news, ?_⟩
      rw [alters.account found news, slot, here]
      exact .givenUp due

theorem delivered_turn {regime : Regime} {m : Moment} {front : Delivery} {rest : Outbox}
    (found : w.engine.tracker.find? rule = some id) (due : (w.slot id).outbox = front :: rest) :
    w.Alters id [] (w.delivered id front rest) ∧
      Turn regime rule m (w.account rule) (some { stage := .accepted })
        ((w.delivered id front rest).account rule) (some { stage := .draining }) := by
  have alters : w.Alters id [] (w.delivered id front rest) := by
    rw [delivered]
    split
    · exact (alters_setOutbox w id _).trans (alters_count _ id _)
    · exact alters_setOutbox w id _
  have slot : (w.delivered id front rest).slot id = { w.slot id with outbox := rest } := by
    rw [delivered]
    split <;> exact slot_setOutbox _ id _
  refine ⟨alters, ?_⟩
  rw [alters.account found (by simp), slot, account_of_find found]
  exact .delivered due

theorem account_of_alike (alike : (w.engine.tracker.slotFor rule).Alike (w'.engine.tracker.slotFor rule))
    (journal : w'.journal = w.journal) : w'.account rule = w.account rule := by
  rw [World.account, World.account, alike.state, alike.outbox, alike.retired, journal]

/-- What the holder of slot `id` of `rule` does is a turn on the account of the rule and no business of
the others. -/
structure Advances (regime : Regime) (rule : RuleId) (id : SlotId) (w : World) (x : Option Work)
    (w' : World) (x' : Option Work) : Prop where
  turn : Turn regime rule (w.moment rule w') (w.account rule) x (w'.account rule) x'
  others : ∀ {rule' : RuleId}, rule' ≠ rule → w'.account rule' = w.account rule'
  coherent : w'.engine.tracker.Coherent
  respects : ∀ {ticket : Ticket}, (w.slot id).queue.head? = some ticket →
    w.engine.tracker.Respects ticket w'.engine.tracker
  /-- Only a rule that is gone loses its slot. -/
  stays : ∀ {rule' : RuleId} {id' : SlotId}, w.engine.tracker.find? rule' = some id' →
    rule' ≠ rule ∨ (w.account rule).retired = false →
    w'.engine.tracker.find? rule' = some id'
  held : x' ≠ none → w'.engine.tracker.find? rule = some id ∧
    (w'.slot id).queue = (w.slot id).queue
  /-- Whoever lets go of the slot leaves the front of its queue. -/
  queues : w'.engine.tracker.queues = x'.elim
    (Function.update w.engine.tracker.queues id (w.engine.tracker.queues id).tail) fun _ => w.engine.tracker.queues
  rules : w'.engine.rules = w.engine.rules
  moves : w'.moves = w.moves
  journal : ∃ news, w'.journal = news ++ w.journal

theorem Advances.each_account {regime : Regime} {x x' : Option Work} {P : RuleId → Account → Prop}
    (h : Advances regime rule id w x w' x') (own : P rule (w'.account rule))
    (all : ∀ rule', P rule' (w.account rule')) (rule' : RuleId) : P rule' (w'.account rule') := by
  by_cases same : rule' = rule
  · exact same ▸ own
  · exact h.others same ▸ all rule'

theorem Advances.each_work {regime : Regime} {x x' : Option Work} {P : RuleId → Account → Option Work → Prop}
    {holders : RuleId → Option Work} (h : Advances regime rule id w x w' x') (own : P rule (w'.account rule) x')
    (all : ∀ rule', P rule' (w.account rule') (holders rule')) (rule' : RuleId) :
    P rule' (w'.account rule') (Function.update holders rule x' rule') := by
  by_cases same : rule' = rule
  · subst same
    rw [Function.update_self]
    exact own
  · rw [Function.update_of_ne same, h.others same]
    exact all rule'

theorem Alters.advances {regime : Regime} {x : Option Work} {work' : Work} (h : w.Alters id news w')
    (c : w.engine.tracker.Coherent) (found : w.engine.tracker.find? rule = some id)
    (named : ∀ n ∈ news, n.ruleId = rule)
    (turn : Turn regime rule (w.moment rule w') (w.account rule) x (w'.account rule) (some work')) :
    Advances regime rule id w x w' (some work') where
  turn := turn
  others ne := h.account_other c found named ne
  coherent := h.rewrites.coherent c (c.get found)
  respects head := h.rewrites.respects head
  stays found' _ := (h.rewrites.find? _).trans found'
  held _ := ⟨(h.rewrites.find? _).trans found, h.rewrites.queue (c.get found)⟩
  queues := h.rewrites.queues (c.get found)
  rules := h.rules
  moves := h.moves
  journal := ⟨news, h.journal⟩

theorem alters_hand (w : World) (id : SlotId) (event : Event) : w.Alters id [.handed event] (w.hand event) :=
  (alters_count w id _).trans (alters_note _ id _)

theorem advances_leave (regime : Regime) (c : w.engine.tracker.Coherent)
    (found : w.engine.tracker.find? rule = some id) (tidy : (w.slot id).Tidy) :
    Advances regime rule id w (some {}) (w.leave id) none := by
  have same (rule' : RuleId) : (w.leave id).account rule' = w.account rule' :=
    account_of_alike (Tracker.slotFor_leave c id rule') rfl
  refine ⟨?_, fun _ => same _, (Tracker.resembles_leave (c.get found)).coherent c,
    Tracker.respects_leave, fun found' _ => ?_, fun none => absurd rfl none, Tracker.queues_leave _ id, rfl, rfl,
    [], rfl⟩
  · rw [same, account_of_find found]
    exact .left tidy
  · exact (Tracker.find?_leave _ id _).trans found'

theorem release_of_kept (kept : (w.slot id).retired = false ∨ (w.slot id).outbox ≠ []) : w.release id = w.leave id := by
  rw [release, leave]
  exact congrArg (fun r => (w.wake _).onTracker fun _ => r.1) (Tracker.release_of_kept kept)

theorem tracker_release_of_spent (retired : (w.slot id).retired = true) (spent : (w.slot id).outbox = []) :
    (w.release id).engine.tracker = (w.engine.tracker.detach id).leave id :=
  congrArg Prod.fst (Tracker.release_of_spent retired spent)

theorem advances_release (regime : Regime) (c : w.engine.tracker.Coherent)
    (found : w.engine.tracker.find? rule = some id) :
    Advances regime rule id w (some {}) (w.release id) none := by
  have here := account_of_find found
  by_cases spent : (w.slot id).retired = true ∧ (w.slot id).outbox = []
  · have tracker := tracker_release_of_spent spent.1 spent.2
    have detached := Tracker.coherent_detach c found
    have gone := Tracker.find?_detach c found
    have left (rule' : RuleId) : ((w.engine.tracker.detach id).slotFor rule').Alike
        ((w.release id).engine.tracker.slotFor rule') := by
      rw [tracker]
      exact Tracker.slotFor_leave detached id rule'
    have queue : ((w.engine.tracker.detach id).slot id).queue = (w.slot id).queue := by
      rw [Tracker.slot_detach]
      rfl
    have got : (w.engine.tracker.detach id).slots[id]? = some _ := Tracker.get_detach _ id
    refine ⟨?_, fun {rule'} ne => ?_, ?_, fun {ticket} head => ?_, fun {rule' id'} found' kept => ?_,
      fun none => absurd rfl none, ?_, rfl, rfl, [], rfl⟩
    · have after : (w.release id).account rule =
          { state := .initial rule, past := (w.account rule).past } := by
        have alike := left rule
        rw [Tracker.slotFor_of_absent gone] at alike
        rw [World.account, alike.state, alike.outbox, alike.retired]
        rfl
      rw [after, here]
      exact .forgotten spent.1 spent.2
    · refine account_of_alike ?_ rfl
      rw [← Tracker.slotFor_detach_other c found ne]
      exact left rule'
    · rw [tracker]
      exact (Tracker.resembles_leave got).coherent detached
    · rw [tracker]
      exact (Tracker.respects_detach c found head).trans
        (Tracker.respects_leave (queue ▸ head))
    · have ne : rule' ≠ rule := by
        refine kept.resolve_right fun kept => ?_
        rw [here] at kept
        exact absurd (kept.symm.trans spent.1) Bool.false_ne_true
      rw [tracker, Tracker.find?_leave, Tracker.find?_detach_other c found ne, found']
    · rw [tracker, Tracker.queues_leave, Tracker.queues_detach]
      rfl
  · have kept : (w.slot id).retired = false ∨ (w.slot id).outbox ≠ [] := Tracker.kept_of_unspent spent
    rw [release_of_kept kept]
    exact advances_leave regime c found fun retired => kept.resolve_left (by simp [retired])

theorem advances_seed {regime : Regime} (coherent : w.engine.tracker.Coherent)
    (found : w.engine.tracker.find? rule = some id) (alertId : AlertId) (recovers : regime ≠ .serving)
    (known : regime = .recovering → ∃ r, w.rule? rule = some r) (kept : (w.slot id).retired = false) :
    Advances regime rule id w (some {}) (w.onTracker fun t => (t.seed id alertId).1) (some {}) := by
  have alters : w.Alters id [] (w.onTracker fun t => (t.seed id alertId).1) :=
    alters_onTracker (coherent.rewrites_seed found alertId)
  refine alters.advances coherent found (by simp) ?_
  have slot : (w.onTracker fun t => (t.seed id alertId).1).slot id =
      if (w.slot id).state.isOpen then w.slot id else { w.slot id with state := .recovered rule alertId } :=
    coherent.slot_seed found alertId
  rw [alters.account found (by simp), slot, account_of_find found]
  cases opened : (w.slot id).state.isOpen with
  | true => exact .idle
  | false => exact .seeded alertId recovers known kept opened

theorem advances_retire {regime : Regime} {todo : List Event} (coherent : w.engine.tracker.Coherent)
    (found : w.engine.tracker.find? rule = some id)
    (spent : (w.slot id).state.isOpen = false ∨
      regime ≠ .serving ∧ (regime = .recovering → w.rule? rule = none)) :
    Advances regime rule id w (some { todo }) (w.onTracker (·.retire id)) (some { todo }) := by
  have alters : w.Alters id [] (w.onTracker (·.retire id)) :=
    alters_onTracker (Tracker.rewrites_retire _ id)
  have slot : (w.onTracker (·.retire id)).slot id = { w.slot id with retired := true } :=
    Tracker.slot_update _ id _
  refine alters.advances coherent found (by simp) ?_
  rw [alters.account found (by simp), slot, account_of_find found]
  refine .retire (spent.imp_right fun ⟨mixes, unknown⟩ => ⟨mixes, fun recovers => ?_⟩)
  rw [moment, unknown recovers]
  simp

theorem advances_hand {regime : Regime} {event : Event} {x : Option Work} {work' : Work}
    (coherent : w.engine.tracker.Coherent) (found : w.engine.tracker.find? rule = some id)
    (named : event.ruleId = rule)
    (turn : Turn regime rule (w.moment rule (w.hand event)) (w.account rule) x
      { w.account rule with past := .handed event :: (w.account rule).past } (some work')) :
    Advances regime rule id w x (w.hand event) (some work') := by
  have news : ∀ n ∈ [Happening.handed event], n.ruleId = rule := by
    simpa [Happening.ruleId] using named
  have alters := alters_hand w id event
  refine alters.advances coherent found news ?_
  rw [alters.account found news]
  rw [account_of_find found] at turn ⊢
  exact turn

theorem advances_unmark (regime : Regime) (coherent : w.engine.tracker.Coherent)
    (found : w.engine.tracker.find? rule = some id) (empty : (w.slot id).outbox = []) :
    Advances regime rule id w (some { stage := .draining }) (w.onTracker (·.unmarkBacklogged rule))
      (some {}) := by
  have alters : w.Alters id [] (w.onTracker (·.unmarkBacklogged rule)) :=
    alters_onTracker (rewrites_unmarkBacklogged _ id rule)
  have slot : (w.onTracker (·.unmarkBacklogged rule)).slot id = w.slot id := rfl
  refine alters.advances coherent found (by simp) ?_
  rw [alters.account found (by simp), slot, account_of_find found]
  refine .drained fun front mem => ?_
  rw [show (w.slot id).outbox = [] from empty] at mem
  exact absurd mem (by simp)

theorem change_turn {regime : Regime} {todo : List Event} {c : FiringState.Change} {w' : World}
    (coherent : w.engine.tracker.Coherent) (found : w.engine.tracker.find? rule = some id)
    (serves : regime ≠ .recovering) (suits : c.Suits rule (w.slot id).retired)
    (alters : w.Alters id (((w.slot id).state.apply c).2.toList.map .produced) w')
    (slot : w'.slot id = { w.slot id with state := ((w.slot id).state.apply c).1 }) :
    Advances regime rule id w (some { todo }) w'
      (some { todo := todo ++ ((w.slot id).state.apply c).2.toList }) := by
  have named : (w.slot id).state.ruleId = rule := coherent.stateRuleId found
  have news : ∀ n ∈ ((w.slot id).state.apply c).2.toList.map Happening.produced, n.ruleId = rule := by
    intro n mem
    obtain ⟨event, produced, rfl⟩ := List.mem_map.mp mem
    exact (FiringState.ruleId_of_apply (named.symm ▸ suits) (Option.mem_toList.mp produced)).trans named
  refine alters.advances coherent found news ?_
  rw [alters.account found news, slot, account_of_find found]
  exact .changed c serves suits

end World

variable {regime : Regime} {rule : RuleId} {id : SlotId} {w w' : World} {work : Work}
  {x x' : Option Work}

theorem Edit.advances (edit : Edit regime rule id w work w' x')
    (coherent : w.engine.tracker.Coherent) (found : w.engine.tracker.find? rule = some id)
    (defined : ∀ r, w.rule? rule = some r → r.id = rule)
    (tagged : Tagged rule (w.account rule).outbox (some work)) :
    w.Advances regime rule id (some work) w' x' := by
  have here := World.account_of_find found
  cases edit with
  | change c serves suits =>
      rw [World.change_snd]
      have suits : c.Suits rule (w.slot id).retired := by
        cases c with
        | transition => exact absurd suits.2 (by simp)
        | _ => trivial
      exact World.change_turn coherent found serves suits (World.alters_change c)
        (World.slot_change w id c)
  | @transition todo r breached value time serves known kept =>
      rw [World.transition_snd]
      obtain ⟨ids, same⟩ := World.transition_fst w id r breached value time
      rw [same]
      have alters : World.Alters id [] (w.change id (.transition w.ids.next r breached value time)).1
          { (w.change id (.transition w.ids.next r breached value time)).1 with ids } :=
        World.alters_aside rfl rfl rfl rfl
      exact World.change_turn coherent found serves ⟨defined r known, kept⟩
        ((World.alters_change _).trans alters) (World.slot_change w id _)
  | retire spent => exact World.advances_retire coherent found spent
  | seed alertId recovers known kept =>
      exact World.advances_seed coherent found alertId recovers known kept
  | @hand event todo =>
      exact World.advances_hand coherent found (tagged.work _ rfl event (by simp)) .hand
  | handStray recovers named ends =>
      exact World.advances_hand coherent found named (.handStray recovers named ends)
  | @queueBehind event todo waits =>
      have named : event.ruleId = rule := tagged.work _ rfl event (by simp [Stage.events])
      obtain ⟨news, alters, about, turn⟩ := World.queueBehind_turn found named waits
      exact alters.advances coherent found about turn
  | @firstFailure event error todo empty =>
      have named : event.ruleId = rule := tagged.work _ rfl event (by simp [Stage.events])
      obtain ⟨news, alters, about, turn⟩ := World.firstFailure_turn found named empty
      exact alters.advances coherent found about turn
  | delivered due =>
      obtain ⟨alters, turn⟩ := World.delivered_turn found due
      exact alters.advances coherent found (by simp) turn
  | @failedAgain front rest error due =>
      have named : front.event.ruleId = rule := by
        refine tagged.outbox front ?_
        rw [here, due]
        exact List.mem_cons_self
      obtain ⟨news, alters, about, turn⟩ := World.failedAgain_turn found named due
      exact alters.advances coherent found about turn
  | drains => exact (World.Alters.refl id w).advances coherent found (by simp) .drains
  | drained waits tried =>
      refine (World.Alters.refl id w).advances coherent found (by simp) (.drained ?_)
      rw [here]
      exact tried
  | unmark empty => exact World.advances_unmark regime coherent found empty
  | leave tidy => exact World.advances_leave regime coherent found tidy
  | release => exact World.advances_release regime coherent found

/-- A call that takes the slot it holds; one that may make slots revives a retired slot. -/
theorem World.advances_take {c : Claim} (coherent : w.engine.tracker.Coherent)
    (found : w.engine.tracker.find? rule = some c.slot) :
    w.Advances regime rule c.slot none (w.onTracker (·.take c)) (some {}) := by
  have alters : w.Alters c.slot [] (w.onTracker (·.take c)) :=
    World.alters_onTracker (Tracker.rewrites_take _ c)
  refine alters.advances coherent found (by simp) ?_
  rw [alters.account found (by simp), World.account_of_find found]
  cases mode : c.mode with
  | create =>
      have same : w.engine.tracker.take c =
          w.engine.tracker.update c.slot fun s => { s with retired := false } := by
        rw [Tracker.take, mode]
      have slot : (w.onTracker (·.take c)).slot c.slot = { w.slot c.slot with retired := false } :=
        (congrArg (fun t => Tracker.slot t c.slot) same).trans (Tracker.slot_update _ _ _)
      rw [slot]
      exact .taken (.inr rfl)
  | existing =>
      have same : w.engine.tracker.take c = w.engine.tracker := by
        rw [Tracker.take, mode]
      have slot : (w.onTracker (·.take c)).slot c.slot = w.slot c.slot :=
        congrArg (fun t => Tracker.slot t c.slot) same
      rw [slot]
      exact .taken (.inl rfl)

/-- Sends, acts and answers leave the slot as it is. -/
theorem World.advances_past (news : List Happening) {work' : Work} (coherent : w.engine.tracker.Coherent)
    (found : w.engine.tracker.find? rule = some id) (alters : w.Alters id news w')
    (about : ∀ n ∈ news, n.ruleId = rule) (slot : w'.slot id = w.slot id)
    (turn : Turn regime rule (w.moment rule w') (w.account rule) x
      { w.account rule with past := news ++ (w.account rule).past } (some work')) :
    w.Advances regime rule id x w' (some work') := by
  refine alters.advances coherent found about ?_
  rw [alters.account found about, slot]
  rw [World.account_of_find found] at turn ⊢
  exact turn

theorem Happens.advances (happens : Happens regime rule id w x w' x')
    (coherent : w.engine.tracker.Coherent) (found : w.engine.tracker.find? rule = some id)
    (defined : ∀ r, w.rule? rule = some r → r.id = rule)
    (tagged : Tagged rule (w.account rule).outbox x) : w.Advances regime rule id x w' x' := by
  have here := World.account_of_find found
  have front {d : Delivery} {rest : Outbox} (due : (w.slot id).outbox = d :: rest) :
      (w.account rule).outbox = d :: rest ∧ d.event.ruleId = rule := by
    have outbox : (w.account rule).outbox = d :: rest := by rw [here, due]
    exact ⟨outbox, tagged.outbox d (outbox ▸ List.mem_cons_self)⟩
  cases happens with
  | edit edit => exact edit.advances coherent found defined tagged
  | @taken c at_ =>
      subst at_
      exact World.advances_take coherent found
  | @sent event todo start empty =>
      have named : event.ruleId = rule := tagged.work _ rfl event (by simp [Stage.events])
      exact World.advances_past [.sent event] coherent found (World.alters_aside rfl rfl rfl rfl)
        (by simpa [Happening.ruleId] using named) rfl (.sent (by rw [here, empty]) rfl)
  | resent start due ripe =>
      obtain ⟨outbox, named⟩ := front due
      exact World.advances_past [.sent _] coherent found (World.alters_aside rfl rfl rfl rfl)
        (by simpa [Happening.ruleId] using named) rfl (.resent outbox ripe rfl)
  | acted waits =>
      exact World.advances_past [] coherent found (World.alters_aside rfl rfl rfl rfl) (by simp) rfl
        (.acted _ waits)
  | actedAgain due waits =>
      exact World.advances_past [] coherent found (World.alters_aside rfl rfl rfl rfl) (by simp) rfl
        (.actedAgain _ waits)
  | @accepted event todo flight done =>
      have named : event.ruleId = rule := tagged.work _ rfl event (by simp [Stage.events])
      exact World.advances_past _ coherent found (World.alters_note w id _)
        (by simpa [Happening.ruleId] using named) rfl (.accepted done)
  | @refused event todo flight error =>
      have named : event.ruleId = rule := tagged.work _ rfl event (by simp [Stage.events])
      exact World.advances_past _ coherent found (World.alters_note w id _)
        (by simpa [Happening.ruleId] using named) rfl (.refused error)
  | acceptedAgain due done =>
      obtain ⟨outbox, named⟩ := front due
      exact World.advances_past _ coherent found (World.alters_note w id _)
        (by simpa [Happening.ruleId] using named) rfl (.acceptedAgain outbox done)
  | refusedAgain due error =>
      obtain ⟨outbox, named⟩ := front due
      exact World.advances_past _ coherent found (World.alters_note w id _)
        (by simpa [Happening.ruleId] using named) rfl (.refusedAgain outbox error)

/-! ### What edits never touch -/

/-- The rules and the sink are the same, no time passes, and this many delays are drawn. -/
structure World.Spares (draws : Nat) (w w' : World) : Prop where
  rules : w'.engine.rules = w.engine.rules
  sink : w'.sink = w.sink
  clock : w'.clock = w.clock
  policy : w'.engine.policy = w.engine.policy
  jitter : w'.jitter = w.jitter.after draws

theorem World.Spares.trans {n m : Nat} {w₁ w₂ w₃ : World} (h : w₁.Spares n w₂) (h' : w₂.Spares m w₃) :
    w₁.Spares (n + m) w₃ := by
  refine ⟨h'.rules.trans h.rules, h'.sink.trans h.sink, h'.clock.trans h.clock,
    h'.policy.trans h.policy, ?_⟩
  rw [h'.jitter, h.jitter, Supply.after, Supply.after, Supply.after, Nat.add_assoc]

theorem World.spares_onTracker (w : World) (f : Tracker → Tracker) : w.Spares 0 (w.onTracker f) :=
  ⟨rfl, rfl, rfl, rfl, rfl⟩

theorem World.spares_count (w : World) (c : Stats.Count) : w.Spares 0 (w.count c) :=
  ⟨rfl, rfl, rfl, rfl, rfl⟩

theorem World.spares_abandon (w : World) (event : Event) (attempts : Nat) (error : SinkError) :
    w.Spares 0 (w.abandon event attempts error) := by
  constructor <;> simp only [abandon, readCalendar, count, note, onEngine]
  rfl

theorem World.spares_change (w : World) (id : SlotId) (c : FiringState.Change) :
    w.Spares 0 (w.change id c).1 := by
  simp only [change]
  split <;> exact ⟨rfl, rfl, rfl, rfl, rfl⟩

/-- A delay is drawn for a failure that is still to be counted, and for nothing else. -/
theorem Edit.spares (edit : Edit regime rule id w work w' x) :
    ∃ draws ≤ Work.debt (some work), w.Spares draws w' := by
  cases edit with
  | change c => exact ⟨0, Nat.zero_le _, w.spares_change id c⟩
  | @transition todo r breached value time =>
      obtain ⟨ids, same⟩ := World.transition_fst w id r breached value time
      rw [same]
      obtain ⟨rules, sink, clock, policy, jitter⟩ :=
        w.spares_change id (.transition w.ids.next r breached value time)
      exact ⟨0, Nat.zero_le _, rules, sink, clock, policy, jitter⟩
  | @queueBehind event todo =>
      refine ⟨0, Nat.zero_le _, ?_⟩
      simp only [World.queueBehind]
      generalize (w.slot id).outbox.enqueue event w.clock = put
      obtain ⟨outbox, result⟩ := put
      cases result with
      | queued => exact ⟨rfl, rfl, rfl, rfl, rfl⟩
      | collapsed opening => exact ⟨rfl, rfl, rfl, rfl, rfl⟩
      | overflow event =>
          exact ((w.spares_onTracker _).trans (World.spares_abandon ..)).trans
            (World.spares_onTracker ..)
  | @firstFailure event error todo =>
      rw [World.firstFailure]
      split
      · exact ⟨1, Nat.le_refl _, rfl, rfl, rfl, rfl, rfl⟩
      · exact ⟨0, Nat.zero_le _, (w.spares_count _).trans (World.spares_abandon ..)⟩
  | delivered =>
      rw [World.delivered]
      split <;> exact ⟨0, Nat.zero_le _, rfl, rfl, rfl, rfl, rfl⟩
  | @failedAgain front rest error =>
      have failed (f : Tracker → Tracker) :
          w.Spares 1 (((w.count .sinkFailure).failDelivery front error).1.onTracker f) :=
        ⟨rfl, rfl, rfl, rfl, rfl⟩
      refine ⟨1, Nat.le_refl _, ?_⟩
      simp only [World.failedAgain]
      split
      · dsimp only
        exact failed _
      · exact (failed _).trans (World.spares_abandon ..)
  | _ => exact ⟨0, Nat.zero_le _, rfl, rfl, rfl, rfl, rfl⟩

/-- An edit leaves no failure to be counted. -/
theorem Edit.settled (edit : Edit regime rule id w work w' x) : Work.debt x = 0 := by
  cases edit <;> rfl

theorem Edit.rules (edit : Edit regime rule id w work w' x) : w'.engine.rules = w.engine.rules :=
  edit.spares.elim fun _ spares => spares.2.rules

theorem Edit.sink (edit : Edit regime rule id w work w' x) : w'.sink = w.sink :=
  edit.spares.elim fun _ spares => spares.2.sink

/-! ### Time and chance -/

/-- Time stands still, and nothing but draws happens to the supply of random delays. -/
structure World.Paces (w w' : World) : Prop where
  clock : w'.clock = w.clock
  policy : w'.engine.policy = w.engine.policy
  draws : ∃ n, w'.jitter = w.jitter.after n

theorem World.Paces.of_same {w w' : World} (clock : w'.clock = w.clock)
    (policy : w'.engine.policy = w.engine.policy) (jitter : w'.jitter = w.jitter) : w.Paces w' :=
  ⟨clock, policy, 0, jitter⟩

theorem World.Paces.refl (w : World) : w.Paces w :=
  .of_same rfl rfl rfl

theorem World.Paces.trans {w₁ w₂ w₃ : World} (h : w₁.Paces w₂) (h' : w₂.Paces w₃) : w₁.Paces w₃ := by
  obtain ⟨n, first⟩ := h.draws
  obtain ⟨m, later⟩ := h'.draws
  refine ⟨h'.clock.trans h.clock, h'.policy.trans h.policy, n + m, ?_⟩
  rw [later, first, Supply.after, Supply.after, Supply.after, Nat.add_assoc]

theorem World.Paces.supply {w w' : World} (h : w.Paces w') : w'.jitter.value = w.jitter.value := by
  obtain ⟨n, draws⟩ := h.draws
  rw [draws, Supply.after]

theorem World.Paces.taken {w w' : World} (h : w.Paces w') : w.jitter.taken ≤ w'.jitter.taken := by
  obtain ⟨n, draws⟩ := h.draws
  rw [draws]
  exact Nat.le_add_right _ n

theorem Edit.paces (edit : Edit regime rule id w work w' x) : w.Paces w' := by
  obtain ⟨n, -, spares⟩ := edit.spares
  exact ⟨spares.clock, spares.policy, n, spares.jitter⟩

theorem Happens.paces (happens : Happens regime rule id w x w' x') : w.Paces w' := by
  cases happens with
  | edit edit => exact edit.paces
  | _ => exact .of_same rfl rfl rfl

end ThresholdAlerts
