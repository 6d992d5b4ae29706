import ThresholdAlerts.Proofs.Lifecycle
/-! The books on alert events. Main statement: once all calls have come to their end, the events that
were handed over are those that the sink accepted, those that cancelled each other, those that were given
up and those that still wait in an outbox, each as often as it was handed over; the counters and the log
of dead letters say so. -/
namespace ThresholdAlerts

open Function

def Happening.handed? : Happening → Option Event
  | .handed event => some event
  | _ => none

/-- The events that come to their end: the sink accepted them, they cancelled each other, or they were
given up. -/
def Happening.ended : Happening → List Event
  | .answered event (.ok ()) => [event]
  | .cancelled opening event => [opening, event]
  | .abandoned event _ => [event]
  | _ => []

/-- The events that were handed over and have not come to their end. The one that was accepted leaves its
outbox a moment later. -/
def Outbox.waiting (outbox : Outbox) : Option Work → List Event
  | some { stage := .accepted, .. } => outbox.tail.map (·.event)
  | some work => work.stage.events ++ outbox.map (·.event)
  | none => outbox.map (·.event)

theorem Outbox.cancels_last {outbox : Outbox} {event : Event} {d : Delivery}
    (cancels : outbox.cancelledBy? event = some d) : outbox.dropLast ++ [d] = outbox ∧
      ∃ alert, d.event = .opened alert ∧ d.failures = 0 ∧ event.closing? = some alert.id := by
  cases event with
  | opened alert => exact absurd cancels (by simp [cancelledBy?])
  | resolved id rule time reason =>
      obtain ⟨last, unsent⟩ := Option.filter_eq_some_iff.mp cancels
      refine ⟨List.dropLast_append_getLast? d last, ?_⟩
      rw [isUnsentOpening] at unsent
      cases here : d.event with
      | opened alert =>
          simp only [here, Bool.and_eq_true, decide_eq_true_eq] at unsent
          exact ⟨alert, rfl, unsent.1, congrArg some unsent.2.symm⟩
      | resolved => simp [here] at unsent

/-! ### The account of a rule -/

variable {regime : Regime} {rule : RuleId} {m : Moment} {a a' : Account} {x x' : Option Work}

/-- No event of a rule is lost or counted twice. -/
structure Account.Balanced (rule : RuleId) (a : Account) (x : Option Work) : Prop where
  events : (a.past.filterMap Happening.handed?).Perm
    (a.past.flatMap Happening.ended ++ a.outbox.waiting x)
  own : ∀ h ∈ a.past, ∀ event ∈ h.ended, event.ruleId = rule

theorem Account.Balanced.moved (h : a.Balanced rule x) (past : a'.past = a.past)
    (moves : (a.outbox.waiting x).Perm (a'.outbox.waiting x')) : a'.Balanced rule x' := by
  obtain ⟨events, own⟩ := h
  refine ⟨?_, past.symm ▸ own⟩
  rw [past]
  exact events.trans (moves.append_left _)

theorem Account.Balanced.noted {news : Happening} (h : a.Balanced rule x)
    (past : a'.past = news :: a.past) (about : ∀ event ∈ news.ended, event.ruleId = rule)
    (moves : (news.handed?.toList ++ a.outbox.waiting x).Perm (news.ended ++ a'.outbox.waiting x')) :
    a'.Balanced rule x' := by
  obtain ⟨events, own⟩ := h
  refine ⟨?_, past.symm ▸ List.forall_mem_cons.mpr ⟨about, own⟩⟩
  have handed : (news :: a.past).filterMap Happening.handed? =
      news.handed?.toList ++ a.past.filterMap Happening.handed? := by
    rw [List.filterMap_cons]
    cases news.handed? <;> rfl
  rw [past, handed, List.flatMap_cons]
  refine (events.append_left _).trans ((List.perm_append_comm_assoc ..).trans ?_)
  refine (moves.append_left _).trans ((List.perm_append_comm_assoc ..).trans ?_)
  rw [List.append_assoc]

theorem Account.Balanced.cancelled {event : Event} {todo : List Event} {d : Delivery}
    (h : a.Balanced rule (some { todo, stage := .handed event })) (cancels : a.outbox.cancelledBy? event = some d)
    (outbox : ∀ d ∈ a.outbox, d.event.ruleId = rule) (closing : event.ruleId = rule) :
    Account.Balanced rule
      { a with outbox := a.outbox.dropLast, past := .cancelled d.event event :: a.past } (some { todo }) := by
  obtain ⟨shape, -⟩ := Outbox.cancels_last cancels
  have mem : d ∈ a.outbox := shape ▸ List.mem_append_right _ List.mem_cons_self
  have about : ∀ e ∈ (Happening.cancelled d.event event).ended, e.ruleId = rule := by
    simpa [Happening.ended] using ⟨outbox d mem, closing⟩
  refine h.noted rfl about ?_
  have events : a.outbox.map (·.event) = a.outbox.dropLast.map (·.event) ++ [d.event] := by
    rw [← List.map_singleton, ← List.map_append, shape]
  have turned : (a.outbox.dropLast.map (·.event) ++ [d.event]).Perm
      (d.event :: a.outbox.dropLast.map (·.event)) := List.perm_append_comm
  simp only [Outbox.waiting, Stage.events, events]
  exact (turned.cons event).trans (.swap ..)

theorem Turn.balanced (turn : Turn regime rule m a x a' x') (tagged : Tagged rule a.outbox x)
    (h : a.Balanced rule x) : a'.Balanced rule x' := by
  obtain ⟨outbox, work⟩ := tagged
  -- A turn moves an event among those that wait, or notes one happening that ends it.
  cases turn with
  | taken => exact h.moved rfl (.refl _)
  | @changed todo c =>
      cases (a.state.apply c).2 with
      | none => exact h.moved rfl (.refl _)
      | some event => exact h.noted rfl (by simp [Happening.ended]) (.refl _)
  | idle => exact h
  | retire => exact h.moved rfl (.refl _)
  | seeded => exact h.moved rfl (.refl _)
  | hand => exact h.noted rfl (by simp [Happening.ended]) (.refl _)
  | handStray => exact h.noted rfl (by simp [Happening.ended]) (.refl _)
  | queued waits kept room same =>
      refine h.moved rfl ?_
      simp only [Outbox.waiting, Stage.events, List.map_append, List.map_cons, List.map_nil, same]
      exact List.perm_append_comm
  | cancelled cancels => exact h.cancelled cancels outbox (work _ rfl _ (by simp [Stage.events]))
  | @overflow event todo kept full =>
      exact h.noted rfl (by simpa [Happening.ended] using work _ rfl event (by simp [Stage.events]))
        (.refl _)
  | sent => exact h.noted rfl (by simp [Happening.ended]) (.refl _)
  | acted => exact h.moved rfl (.refl _)
  | @accepted event todo flight done =>
      exact h.noted rfl (by simpa [Happening.ended] using work _ rfl event (by simp [Stage.events]))
        (.refl _)
  | refused => exact h.noted rfl (by simp [Happening.ended]) (.refl _)
  | postponed empty same =>
      refine h.moved rfl ?_
      simp [Outbox.waiting, Stage.events, same, empty]
  | @dropped event todo error empty =>
      exact h.noted rfl (by simpa [Happening.ended] using work _ rfl event (by simp [Stage.events]))
        (.refl _)
  | drains => exact h.moved rfl (.refl _)
  | drained => exact h.moved rfl (.refl _)
  | resent => exact h.noted rfl (by simp [Happening.ended]) (.refl _)
  | actedAgain => exact h.moved rfl (.refl _)
  | @acceptedAgain front rest flight due done =>
      refine h.noted rfl (by simpa [Happening.ended] using outbox front (by simp [due])) ?_
      rw [due]
      exact .refl _
  | refusedAgain => exact h.noted rfl (by simp [Happening.ended]) (.refl _)
  | delivered due =>
      refine h.moved rfl ?_
      rw [due]
      exact .refl _
  | delayed due same =>
      refine h.moved rfl ?_
      simp [Outbox.waiting, Stage.events, same, due]
  | @givenUp front rest error due =>
      refine h.noted rfl (by simpa [Happening.ended] using outbox front (by simp [due])) ?_
      rw [due]
      exact .refl _
  | left => exact h.moved rfl (.refl _)
  | forgotten retired spent =>
      refine h.moved rfl ?_
      rw [spent]
      exact .refl _

def Account.handed (a : Account) : List Event :=
  (a.past.filterMap Happening.handed?).reverse

/-- Whatever becomes of an event, it is handed over once. -/
theorem Account.handed_hand (a : Account) (event : Event) (news : List Happening)
    (silent : news.filterMap Happening.handed? = []) :
    { a with past := news ++ Happening.handed event :: a.past }.handed = a.handed ++ [event] := by
  simp [handed, silent, Happening.handed?]

def Work.todoOf (x : Option Work) : List Event :=
  (x.map (·.todo)).getD []

/-- While the calls serve, events are handed over in the order in which they were produced. -/
theorem Turn.told (turn : Turn .serving rule m a x a' x')
    (h : a.produced = a.handed ++ Work.todoOf x) : a'.produced = a'.handed ++ Work.todoOf x' := by
  have noted {news : Happening} (silent : news.produced? = none) (quiet : news.handed? = none)
      (state : FiringState) (outbox : Outbox) (retired : Bool) :
      Account.produced { state, outbox, retired, past := news :: a.past } =
        Account.handed { state, outbox, retired, past := news :: a.past } ++ Work.todoOf x := by
    simp only [Account.produced, Account.handed, List.filterMap_cons, silent, quiet] at h ⊢
    exact h
  cases turn with
  | @changed todo c =>
      rw [Account.produced_changed]
      have handed : Account.handed { a with
          state := (a.state.apply c).1
          past := (a.state.apply c).2.toList.map .produced ++ a.past } = a.handed := by
        cases (a.state.apply c).2 <;> rfl
      rw [handed, h, List.append_assoc]
      rfl
  | @hand event todo =>
      have handed : Account.handed { a with past := .handed event :: a.past } = a.handed ++ [event] := by
        simp [Account.handed, Happening.handed?]
      rw [handed, a.produced_cons rfl, h, List.append_assoc]
      rfl
  | seeded alertId recovers => exact absurd rfl recovers
  | handStray recovers => exact absurd rfl recovers
  | cancelled => exact noted rfl rfl _ _ _
  | overflow => exact noted rfl rfl _ _ _
  | sent => exact noted rfl rfl _ _ _
  | accepted => exact noted rfl rfl _ _ _
  | refused => exact noted rfl rfl _ _ _
  | dropped => exact noted rfl rfl _ _ _
  | resent => exact noted rfl rfl _ _ _
  | acceptedAgain => exact noted rfl rfl _ _ _
  | refusedAgain => exact noted rfl rfl _ _ _
  | givenUp => exact noted rfl rfl _ _ _
  | _ => exact h

/-! ### Counters -/

variable {w w' : World} {id : SlotId} {work : Work} {owed : Nat}

def Happening.isAccepted : Happening → Bool
  | .answered _ (.ok ()) => true
  | _ => false

def Happening.isRefused : Happening → Bool
  | .answered _ (.error _) => true
  | _ => false

def Happening.isCancelled : Happening → Bool
  | .cancelled .. => true
  | _ => false

def Happening.abandoned? : Happening → Option (Event × Nat)
  | .abandoned event attempts => some (event, attempts)
  | _ => none

def Happening.Quiet : Happening → Prop
  | .produced _ => True
  | .sent _ => True
  | .answered _ (.ok ()) => True
  | _ => False

/-- The events that were given up and the attempts that each had, the oldest first. -/
def World.abandonments (w : World) : List (Event × Nat) :=
  (w.journal.filterMap Happening.abandoned?).reverse

/-- The events of the log and the attempts that each had. -/
def DeadLetters.events (log : DeadLetters) : List (Event × Nat) :=
  log.entries.map fun letter => (letter.event, letter.attempts)

/-- Counters and the log say what happened; `owed` failures are still to be counted. -/
structure World.Booked (w : World) (owed : Nat) : Prop where
  opened : w.engine.stats.alertsOpened =
    (w.journal.filterMap Happening.handed?).countP Event.isOpened
  resolved : w.engine.stats.alertsResolved =
    (w.journal.filterMap Happening.handed?).countP (!·.isOpened)
  refused : w.journal.countP Happening.isRefused = w.engine.stats.sinkFailures + owed
  cancelled : w.engine.stats.collapsedDeliveries = w.journal.countP Happening.isCancelled
  abandoned : w.engine.stats.deadLettered = w.abandonments.length
  letters : w.engine.deadLetters.events =
    w.abandonments.drop (w.abandonments.length - DeadLetters.capacity)

theorem DeadLetters.events_push (log : DeadLetters) {all : List (Event × Nat)} (letter : DeadLetter)
    (h : log.events = all.drop (all.length - capacity)) :
    (log.push letter).events =
      (all ++ [(letter.event, letter.attempts)]).drop (all.length + 1 - capacity) := by
  have size : log.entries.length = min all.length capacity := by
    rw [← List.length_map (fun letter : DeadLetter => (letter.event, letter.attempts))]
    change log.events.length = _
    rw [h, List.length_drop]
    omega
  have positive : 0 < capacity := by decide
  have dropped : all.length - capacity + (log.entries.length + 1 - capacity) =
      all.length + 1 - capacity := by omega
  calc (log.push letter).events
      = log.events.drop (log.entries.length + 1 - capacity) ++ [(letter.event, letter.attempts)] := by
        simp only [push, events, List.map_append, List.map_drop, List.map_singleton]
    _ = all.drop (all.length + 1 - capacity) ++ [(letter.event, letter.attempts)] := by
        rw [h, List.drop_drop, dropped]
    _ = _ := (List.drop_append_of_le_length (by omega)).symm

namespace World

theorem Booked.of_agree (h : w.Booked owed) (stats : w.engine.stats.Agree w'.engine.stats)
    (letters : w'.engine.deadLetters = w.engine.deadLetters) (journal : w'.journal = w.journal) :
    w'.Booked owed := by
  obtain ⟨opened, resolved, refused, cancelled, abandoned, logged⟩ := h
  constructor <;> simp only [abandonments, journal, letters, stats.opened, stats.resolved,
    stats.failures, stats.collapsed, stats.deadLettered] <;> assumption

theorem Booked.onTracker (h : w.Booked owed) (f : Tracker → Tracker) : (w.onTracker f).Booked owed :=
  h.of_agree (.refl _) rfl rfl

theorem Booked.note {h : Happening} (booked : w.Booked owed) (quiet : h.Quiet) :
    (w.note h).Booked owed := by
  obtain ⟨opened, resolved, refused, cancelled, abandoned, logged⟩ := booked
  have none : h.handed? = none ∧ h.isRefused = false ∧ h.isCancelled = false ∧ h.abandoned? = none := by
    cases h with
    | produced => exact ⟨rfl, rfl, rfl, rfl⟩
    | sent => exact ⟨rfl, rfl, rfl, rfl⟩
    | answered event answer =>
        cases answer with
        | ok => exact ⟨rfl, rfl, rfl, rfl⟩
        | error => exact quiet.elim
    | _ => exact quiet.elim
  obtain ⟨handed, refused', cancelled', abandoned'⟩ := none
  constructor <;> simp only [World.note, abandonments, List.filterMap_cons, List.countP_cons, handed,
    refused', cancelled', abandoned', Bool.false_eq_true, if_false, Nat.add_zero] <;> assumption

theorem Booked.hand (h : w.Booked owed) (event : Event) : (w.hand event).Booked owed := by
  obtain ⟨opened, resolved, refused, cancelled, abandoned, logged⟩ := h
  have journal : (w.hand event).journal.filterMap Happening.handed? =
      event :: w.journal.filterMap Happening.handed? := rfl
  cases event with
  | opened alert =>
      refine ⟨?_, ?_, refused, cancelled, abandoned, logged⟩
      · rw [journal, List.countP_cons_of_pos rfl, ← opened]
        rfl
      · rw [journal, List.countP_cons_of_neg (by simp [Event.isOpened]), ← resolved]
        rfl
  | resolved alertId ruleId time reason =>
      refine ⟨?_, ?_, refused, cancelled, abandoned, logged⟩
      · rw [journal, List.countP_cons_of_neg (by simp [Event.isOpened]), ← opened]
        rfl
      · rw [journal, List.countP_cons_of_pos rfl, ← resolved]
        rfl

theorem Booked.abandon (h : w.Booked owed) (event : Event) (attempts : Nat) (error : SinkError) :
    (w.abandon event attempts error).Booked owed := by
  obtain ⟨opened, resolved, refused, cancelled, abandoned, logged⟩ := h
  have all : (w.abandon event attempts error).abandonments =
      w.abandonments ++ [(event, attempts)] := by
    simp only [World.abandon, World.abandonments, World.note, World.onEngine, readCalendar, count,
      List.filterMap_cons, Happening.abandoned?, List.reverse_cons]
  have size : (w.abandonments ++ [(event, attempts)]).length = w.abandonments.length + 1 := by simp
  refine ⟨?_, ?_, ?_, ?_, ?_, ?_⟩
  · simpa only [World.abandon, readCalendar, count, World.note, World.onEngine, Stats.record,
      List.filterMap_cons, Happening.handed?] using opened
  · simpa only [World.abandon, readCalendar, count, World.note, World.onEngine, Stats.record,
      List.filterMap_cons, Happening.handed?] using resolved
  · simpa only [World.abandon, readCalendar, count, World.note, World.onEngine, Stats.record,
      List.countP_cons, Happening.isRefused, Bool.false_eq_true, if_false, Nat.add_zero] using refused
  · simpa only [World.abandon, readCalendar, count, World.note, World.onEngine, Stats.record,
      List.countP_cons, Happening.isCancelled, Bool.false_eq_true, if_false, Nat.add_zero] using cancelled
  · rw [all, size, ← abandoned]
    simp only [World.abandon, readCalendar, count, World.note, World.onEngine, Stats.record]
  · rw [all, size]
    have pushed := DeadLetters.events_push w.engine.deadLetters
      { event, attempts, error, failedAt := w.readCalendar.2 } logged
    simpa only [World.abandon, readCalendar, count, World.note, World.onEngine] using pushed

theorem Booked.count_failure (h : w.Booked (owed + 1)) : (w.count .sinkFailure).Booked owed := by
  obtain ⟨opened, resolved, refused, cancelled, abandoned, logged⟩ := h
  refine ⟨opened, resolved, ?_, cancelled, abandoned, logged⟩
  have counted : (w.count .sinkFailure).engine.stats.sinkFailures = w.engine.stats.sinkFailures + 1 := rfl
  rw [counted, Nat.add_assoc, Nat.add_comm 1]
  exact refused

theorem Booked.note_refused (h : w.Booked owed) (event : Event) (error : SinkError) :
    (w.note (.answered event (.error error))).Booked (owed + 1) := by
  obtain ⟨opened, resolved, refused, cancelled, abandoned, logged⟩ := h
  refine ⟨opened, resolved, ?_, ?_, abandoned, logged⟩
  · rw [World.note, List.countP_cons_of_pos rfl, refused]
    rfl
  · rw [World.note, List.countP_cons_of_neg (by simp [Happening.isCancelled])]
    exact cancelled

theorem Booked.cancel (h : w.Booked owed) (opening event : Event) :
    ((w.count .collapsed).note (.cancelled opening event)).Booked owed := by
  obtain ⟨opened, resolved, refused, cancelled, abandoned, logged⟩ := h
  refine ⟨opened, resolved, ?_, ?_, abandoned, logged⟩
  · rw [World.note, List.countP_cons_of_neg (by simp [Happening.isRefused])]
    exact refused
  · rw [World.note, List.countP_cons_of_pos rfl]
    exact congrArg (· + 1) cancelled

theorem Booked.change (h : w.Booked owed) (c : FiringState.Change) :
    (w.change id c).1.Booked owed := by
  simp only [World.change]
  split
  · exact (h.onTracker _).note trivial
  · dsimp only
    exact h.onTracker _

end World

theorem Edit.booked (edit : Edit regime rule id w work w' x) (h : w.Booked (Work.debt (some work))) :
    w'.Booked (Work.debt x) := by
  cases edit with
  | change c => exact h.change c
  | @transition todo r breached value time =>
      obtain ⟨ids, same⟩ := World.transition_fst w id r breached value time
      rw [same]
      exact (h.change _).of_agree (.refl _) rfl rfl
  | retire => exact h.onTracker _
  | seed => exact h.onTracker _
  | hand => exact h.hand _
  | handStray => exact h.hand _
  | @queueBehind event todo =>
      simp only [World.queueBehind]
      generalize (w.slot id).outbox.enqueue event w.clock = put
      obtain ⟨outbox, result⟩ := put
      cases result with
      | queued => exact (h.onTracker _).onTracker _
      | collapsed opening => exact ((h.onTracker _).cancel opening event).onTracker _
      | overflow event => exact ((h.onTracker _).abandon event 0 _).onTracker _
  | @firstFailure event error todo =>
      have counted : (w.count .sinkFailure).Booked 0 := h.count_failure
      rw [World.firstFailure]
      split
      · exact counted.of_agree (.refl _) rfl rfl
      · exact counted.abandon event 1 error
  | delivered =>
      rw [World.delivered]
      split
      · exact (h.onTracker _).of_agree ⟨rfl, rfl, rfl, rfl, rfl⟩ rfl rfl
      · exact h.onTracker _
  | @failedAgain front rest error =>
      have counted : (w.count .sinkFailure).Booked 0 := h.count_failure
      have noted : ((w.count .sinkFailure).failDelivery front error).1.Booked 0 :=
        counted.of_agree (.refl _) rfl rfl
      simp only [World.failedAgain]
      split
      · dsimp only
        exact noted.onTracker _
      · exact (noted.onTracker _).abandon _ _ error
  | drains => exact h
  | drained => exact h
  | unmark => exact h.onTracker _
  | leave => exact h.of_agree (.refl _) rfl rfl
  | release => exact h.of_agree (.refl _) rfl rfl

theorem Happens.booked (happens : Happens regime rule id w x w' x') (h : w.Booked (Work.debt x)) :
    w'.Booked (Work.debt x') := by
  cases happens with
  | taken => exact h.onTracker _
  | edit edit => exact edit.booked h
  | sent => exact World.Booked.note (h.of_agree (.refl _) rfl rfl) trivial
  | resent => exact World.Booked.note (h.of_agree (.refl _) rfl rfl) trivial
  | acted => exact h.of_agree (.refl _) rfl rfl
  | actedAgain => exact h.of_agree (.refl _) rfl rfl
  | accepted => exact h.note trivial
  | refused error => exact h.note_refused _ error
  | acceptedAgain => exact h.note trivial
  | refusedAgain due error => exact h.note_refused _ error

/-! ### Every interleaving -/

variable {holders : RuleId → Option Work}

/-- The events of each rule are balanced, and the counters say what happened: all but one holder of a slot
have nothing left to count. -/
structure World.Accounted (w : World) (holders : RuleId → Option Work) : Prop where
  balanced : ∀ rule, (w.account rule).Balanced rule (holders rule)
  booked : ∀ rule, (∀ rule' ≠ rule, Work.debt (holders rule') = 0) → w.Booked (Work.debt (holders rule))

theorem Work.Steady.debt (h : work.Steady) : Work.debt (some work) = 0 := by
  obtain ⟨todo, stage⟩ := work
  cases stage with
  | failed => exact h.elim
  | refused => exact h.elim
  | _ => rfl

theorem kept_accounted (regime : Regime) : Kept regime World.Accounted where
  still := fun {w w' holders} still h => by
    obtain ⟨balanced, booked⟩ := h
    refine ⟨fun rule => ?_, fun rule others => ?_⟩
    · rw [still.account]
      exact balanced rule
    · exact (booked rule others).of_agree still.aside.stats still.aside.deadLetters still.aside.journal
  happens := fun {w w' holders rule id x} attended happens h => by
    obtain ⟨balanced, booked⟩ := h
    have settled : ∀ rule' ≠ rule, Work.debt (holders rule') = 0 := by
      intro rule' ne
      cases held : holders rule' with
      | none => rfl
      | some work => exact (attended.steady ne held).debt
    have booked' : w'.Booked (Work.debt x) := happens.booked (booked rule settled)
    refine ⟨?_, fun rule' others => ?_⟩
    · exact (kept_accounts (P := Account.Balanced) fun turn _ tagged h => turn.balanced tagged h).happens
        attended happens balanced
    · by_cases same : rule' = rule
      · subst same
        rw [update_self]
        exact booked'
      · have none := others rule (Ne.symm same)
        rw [update_self] at none
        rw [update_of_ne same, settled rule' same, ← none]
        exact booked'

theorem bears_accounted : Bears World.Elsewhere World.Accounted where
  elsewhere change := change
  kept := fun {w w' holders} change h => by
    obtain ⟨balanced, booked⟩ := h
    obtain ⟨engine, -, journal, -⟩ := change.engine
    refine ⟨fun rule => ?_, fun rule others => ?_⟩
    · rw [change.account]
      exact balanced rule
    · refine (booked rule others).of_agree ?_ (congrArg Engine.deadLetters engine) journal
      rw [engine]
      exact ⟨rfl, rfl, rfl, rfl, rfl⟩

/-! ### Over all rules -/

def World.backlog (w : World) (rule : RuleId) : List Event :=
  (w.account rule).outbox.map (·.event)

/-- The events that wait in the outboxes of the tracked rules. -/
def World.waiting (w : World) : List Event :=
  w.engine.tracker.ruleIds.flatMap w.backlog

theorem perm_of_parts {α β : Type} [DecidableEq α] [DecidableEq β] {l l' : List α} (tag : α → β)
    (parts : ∀ b, (l.filter (tag · = b)).Perm (l'.filter (tag · = b))) : l.Perm l' := by
  refine List.perm_iff_count.mpr fun a => ?_
  have own : decide (tag a = tag a) = true := decide_eq_true rfl
  rw [← List.count_filter (l := l) (p := (tag · = tag a)) own,
    ← List.count_filter (l := l') (p := (tag · = tag a)) own]
  exact (parts (tag a)).count_eq a

theorem flatMap_of_nodup {α β : Type} [DecidableEq β] {l : List β} (nodup : l.Nodup) (f : β → List α)
    (b : β) : (l.flatMap fun b' => if b' = b then f b' else []) = if b ∈ l then f b else [] := by
  induction l with
  | nil => rfl
  | cons b' l ih =>
      obtain ⟨absent, nodup⟩ := List.nodup_cons.mp nodup
      rw [List.flatMap_cons, ih nodup]
      by_cases same : b' = b
      · subst same
        simp [absent]
      · have other : ¬ b = b' := Ne.symm same
        simp [same, other]

theorem Tracker.slots_of_rules (t : Tracker) : t.slotIds.map t.slot = t.ruleIds.map t.slotFor := by
  rw [slotIds, values_eq_toList, ruleIds, ← Std.TreeMap.map_fst_toList_eq_keys, List.map_map,
    List.map_map]
  refine List.map_congr_left fun entry mem => ?_
  obtain ⟨rule, id⟩ := entry
  have found : t.find? rule = some id := Std.TreeMap.mem_toList_iff_getElem?_eq_some.mp mem
  exact (slotFor_of_find found).symm

theorem TrackerSummary.pendingDeliveries_foldl (slots : List Slot) (s : TrackerSummary) :
    (slots.foldl add s).pendingDeliveries =
      s.pendingDeliveries + (slots.flatMap (·.outbox)).length := by
  induction slots generalizing s with
  | nil => rfl
  | cons slot rest ih =>
      rw [List.foldl_cons, ih, List.flatMap_cons, List.length_append, ← Nat.add_assoc]
      rfl

theorem TrackerSummary.openAlerts_foldl (slots : List Slot) (s : TrackerSummary) :
    (slots.foldl add s).openAlerts = s.openAlerts + slots.countP (·.state.isOpen) := by
  induction slots generalizing s with
  | nil => rfl
  | cons slot rest ih =>
      have opened : (s.add slot).openAlerts = s.openAlerts + if slot.state.isOpen then 1 else 0 := by
        have same : slot.state.status = .opened ↔ slot.state.isOpen = true := by
          rw [FiringState.status, FiringState.isOpen, FiringState.openAlertId]
          cases slot.state.phase <;> simp
        simp only [add, same]
      rw [List.foldl_cons, ih, List.countP_cons, opened, Nat.add_assoc, Nat.add_comm (List.countP ..)]

theorem World.pendingDeliveries_summary (w : World) :
    w.engine.tracker.summary.pendingDeliveries = w.waiting.length := by
  rw [Tracker.summary, TrackerSummary.pendingDeliveries_foldl, Tracker.slots_of_rules, List.flatMap_map,
    Nat.zero_add, World.waiting, ← List.length_map (·.event), List.map_flatMap]
  rfl

theorem World.openAlerts_summary (w : World) : w.engine.tracker.summary.openAlerts =
    (w.engine.tracker.ruleIds.filter fun rule => (w.openAlert rule).isSome).length := by
  rw [Tracker.summary, TrackerSummary.openAlerts_foldl, Tracker.slots_of_rules, List.countP_map,
    List.countP_eq_length_filter, Nat.zero_add]
  rfl

/-- What waits for one of some rules, out of all that waits for them. -/
theorem World.backlogs_of_rule (tagged : ∀ rule, Tagged rule (w.account rule).outbox none) {rules : List RuleId}
    (nodup : rules.Nodup) (rule : RuleId) :
    (rules.flatMap w.backlog).filter (·.ruleId = rule) = if rule ∈ rules then w.backlog rule else [] := by
  have part (rule' : RuleId) : (w.backlog rule').filter (·.ruleId = rule) =
      if rule' = rule then w.backlog rule' else [] := by
    have named : ∀ event ∈ w.backlog rule', event.ruleId = rule' := by
      intro event mem
      obtain ⟨d, there, rfl⟩ := List.mem_map.mp mem
      exact (tagged rule').outbox d there
    split
    · next same =>
      exact List.filter_eq_self.mpr fun event mem => decide_eq_true ((named event mem).trans same)
    · next other =>
      refine List.filter_eq_nil_iff.mpr fun event mem here => other ?_
      exact (named event mem).symm.trans (of_decide_eq_true here)
  rw [List.filter_flatMap]
  simp only [part]
  exact flatMap_of_nodup nodup w.backlog rule

theorem World.waiting_of_rule (tagged : ∀ rule, Tagged rule (w.account rule).outbox none)
    (rule : RuleId) : w.waiting.filter (·.ruleId = rule) = w.backlog rule := by
  have nodup : w.engine.tracker.ruleIds.Nodup := Std.TreeMap.nodup_keys
  rw [World.waiting, World.backlogs_of_rule tagged nodup]
  split
  · rfl
  · next absent => rw [World.backlog, (account_of_untracked absent).1, List.map_nil]

theorem World.handed_of_rule (w : World) (rule : RuleId) :
    (w.journal.filterMap Happening.handed?).filter (·.ruleId = rule) =
      (w.account rule).past.filterMap Happening.handed? := by
  rw [World.account, List.filter_filterMap, List.filterMap_filter]
  refine List.filterMap_congr fun h mem => ?_
  cases h with
  | handed event => by_cases own : event.ruleId = rule <;> simp [Happening.handed?, Happening.ruleId, own]
  | _ => simp [Happening.handed?]

theorem flatMap_ended_of_rule {journal : List Happening}
    (own : ∀ h ∈ journal, ∀ event ∈ h.ended, event.ruleId = h.ruleId) (rule : RuleId) :
    (journal.flatMap Happening.ended).filter (·.ruleId = rule) =
      (journal.filter (·.ruleId = rule)).flatMap Happening.ended := by
  induction journal with
  | nil => rfl
  | cons h rest ih =>
      obtain ⟨first, others⟩ := List.forall_mem_cons.mp own
      rw [List.flatMap_cons, List.filter_append, ih others, List.filter_cons]
      by_cases here : h.ruleId = rule
      · have all : h.ended.filter (·.ruleId = rule) = h.ended :=
          List.filter_eq_self.mpr fun event mem => decide_eq_true ((first event mem).trans here)
        rw [all, if_pos (decide_eq_true here), List.flatMap_cons]
      · have none : h.ended.filter (·.ruleId = rule) = [] := by
          refine List.filter_eq_nil_iff.mpr fun event mem there => here ?_
          exact (first event mem).symm.trans (of_decide_eq_true there)
        rw [none, if_neg (by simpa using here), List.nil_append]

theorem World.ended_of_rule
    (own : ∀ rule, ∀ h ∈ (w.account rule).past, ∀ event ∈ h.ended, event.ruleId = rule) (rule : RuleId) :
    (w.journal.flatMap Happening.ended).filter (·.ruleId = rule) =
      (w.account rule).past.flatMap Happening.ended := by
  refine flatMap_ended_of_rule (fun h mem => own h.ruleId h ?_) rule
  exact List.mem_filter.mpr ⟨mem, decide_eq_true rfl⟩

theorem length_ended (journal : List Happening) :
    (journal.flatMap Happening.ended).length = journal.countP Happening.isAccepted +
      (journal.filterMap Happening.abandoned?).length + 2 * journal.countP Happening.isCancelled := by
  induction journal with
  | nil => rfl
  | cons h rest ih =>
      rw [List.flatMap_cons, List.length_append, ih, List.countP_cons, List.countP_cons,
        List.filterMap_cons]
      cases h with
      | answered event answer =>
          cases answer <;>
            simp [Happening.ended, Happening.isAccepted, Happening.isCancelled, Happening.abandoned?]
          omega
      | cancelled =>
          simp [Happening.ended, Happening.isAccepted, Happening.isCancelled, Happening.abandoned?]
          omega
      | abandoned =>
          simp [Happening.ended, Happening.isAccepted, Happening.isCancelled, Happening.abandoned?]
          omega
      | _ => simp [Happening.ended, Happening.isAccepted, Happening.isCancelled, Happening.abandoned?]

/-- The books of a world in which nobody is at work. -/
structure World.Balances (w : World) : Prop where
  /-- Each event that was handed over was accepted, cancelled or given up, or waits in an outbox. -/
  events : (w.journal.filterMap Happening.handed?).Perm
    (w.journal.flatMap Happening.ended ++ w.waiting)
  total : w.engine.stats.alertsOpened + w.engine.stats.alertsResolved =
    w.journal.countP Happening.isAccepted + w.engine.tracker.summary.pendingDeliveries +
      w.engine.stats.deadLettered + 2 * w.engine.stats.collapsedDeliveries
  failures : w.engine.stats.sinkFailures = w.journal.countP Happening.isRefused
  /-- The log holds the events that were given up last, in order. -/
  letters : w.engine.stats.deadLettered = w.abandonments.length ∧
    w.engine.deadLetters.events =
      w.abandonments.drop (w.engine.stats.deadLettered - DeadLetters.capacity) ∧
    w.engine.deadLetters.size = min w.engine.stats.deadLettered DeadLetters.capacity

theorem World.Accounted.balances (h : w.Accounted fun _ => none)
    (tagged : ∀ rule, Tagged rule (w.account rule).outbox none) : w.Balances := by
  have booked : w.Booked 0 := h.booked "" fun _ _ => rfl
  obtain ⟨opened, resolved, refused, cancelled, abandoned, logged⟩ := booked
  have own : ∀ rule, ∀ h ∈ (w.account rule).past, ∀ event ∈ h.ended, event.ruleId = rule :=
    fun rule => (h.balanced rule).own
  have events : (w.journal.filterMap Happening.handed?).Perm
      (w.journal.flatMap Happening.ended ++ w.waiting) := by
    refine perm_of_parts Event.ruleId fun rule => ?_
    rw [List.filter_append, w.handed_of_rule, World.ended_of_rule own, World.waiting_of_rule tagged]
    exact (h.balanced rule).events
  refine ⟨events, ?_, ?_, abandoned, ?_, ?_⟩
  · have size := events.length_eq
    rw [List.length_append, length_ended, ← w.pendingDeliveries_summary] at size
    have parts := List.length_eq_countP_add_countP Event.isOpened
      (l := w.journal.filterMap Happening.handed?)
    rw [World.abandonments, List.length_reverse] at abandoned
    have closed : (w.journal.filterMap Happening.handed?).countP (fun e => decide ¬e.isOpened = true) =
        w.engine.stats.alertsResolved := by
      rw [resolved]
      exact List.countP_congr fun e _ => by simp
    omega
  · exact refused.symm
  · rw [abandoned]
    exact logged
  · have length : w.engine.deadLetters.size = w.engine.deadLetters.events.length :=
      (List.length_map _).symm
    rw [length, logged, List.length_drop, ← abandoned]
    omega

/-! ### Open alerts -/

/-- The events that were produced for a rule alternate, and they are those that were handed over and those
that its holder has still to hand over. -/
structure Account.Told (a : Account) (x : Option Work) : Prop where
  coheres : a.Coheres none
  order : a.produced = a.handed ++ Work.todoOf x

theorem kept_told : Kept .serving fun w holders => ∀ rule, (w.account rule).Told (holders rule) :=
  kept_accounts (P := fun _ a x => a.Told x) fun turn _ _ h =>
    ⟨turn.coheres h.coheres, turn.told h.order⟩

/-- Each rule was opened as often as it was closed, and once more if it is tracked as open. -/
theorem World.opened_of_told (told : ∀ rule, (w.account rule).Told none) :
    (((w.journal.filterMap Happening.handed?).filter Event.isOpened).map Event.ruleId).Perm
      (((w.journal.filterMap Happening.handed?).filter (!·.isOpened)).map Event.ruleId ++
        w.engine.tracker.ruleIds.filter fun rule => (w.openAlert rule).isSome) := by
  refine List.perm_iff_count.mpr fun rule => ?_
  have part (p : Event → Bool) :
      (((w.journal.filterMap Happening.handed?).filter p).map Event.ruleId).count rule =
        (w.account rule).handed.countP p := by
    rw [List.count_eq_countP, List.countP_map, List.countP_filter, Account.handed, List.countP_reverse,
      ← w.handed_of_rule, List.countP_filter]
    refine List.countP_congr fun event _ => ?_
    simp [and_comm]
  have nodup : w.engine.tracker.ruleIds.Nodup := Std.TreeMap.nodup_keys
  have opened : (w.engine.tracker.ruleIds.filter fun rule => (w.openAlert rule).isSome).count rule =
      (w.openAlert rule).toList.length := by
    cases here : w.openAlert rule with
    | none => simp [List.count_eq_zero, here]
    | some id =>
        have tracked : rule ∈ w.engine.tracker.ruleIds := by
          refine Classical.not_not.mp fun absent => ?_
          have none := (World.account_of_untracked absent).2
          exact absurd (here.symm.trans none) (by simp)
        rw [List.count_filter (by simp [here]), List.count_eq_one_of_mem nodup tracked]
        rfl
  obtain ⟨⟨alternates, -, -⟩, order⟩ := told rule
  have balance := alternates.balance
  rw [order, Work.todoOf, Option.map_none, Option.getD_none, List.append_nil] at balance
  rw [List.count_append, part, part, opened, World.openAlert]
  simpa using balance

theorem World.Booked.open_alerts (h : w.Booked 0) (told : ∀ rule, (w.account rule).Told none) :
    w.engine.stats.alertsOpened =
      w.engine.stats.alertsResolved + w.engine.tracker.summary.openAlerts := by
  have size := (World.opened_of_told told).length_eq
  rw [List.length_append, List.length_map, List.length_map, ← List.countP_eq_length_filter,
    ← List.countP_eq_length_filter, ← h.opened, ← h.resolved, ← w.openAlerts_summary] at size
  exact size

theorem World.Begins.accounted (h : w.Begins) : w.Accounted fun _ => none := by
  refine ⟨fun rule => ?_, fun _ _ => ?_⟩
  · rw [h.account]
    exact ⟨.refl _, by simp⟩
  · obtain ⟨⟨c, engine⟩, journal⟩ := h
    constructor <;> simp [engine, journal, Engine.ofConfig, World.abandonments, DeadLetters.events,
      Work.debt]

theorem World.Begins.told (h : w.Begins) (rule : RuleId) : (w.account rule).Told none := by
  rw [h.account]
  exact ⟨⟨.nothing, by simp [Account.produced], by simp⟩, rfl⟩

/-- On a new engine, and however calls, answers and changes from outside are interleaved: once all calls
have come to their end no event is lost or counted twice, and as long as nothing was recovered the alerts
that were opened and not resolved are those that are tracked. -/
theorem Scene.no_event_lost {w : World} {s : Scene} (begins : w.Begins)
    (run : Scene.Run (Call.Admitted .mixed) World.Elsewhere { world := w } s)
    (finished : s.AllFinished) :
    s.world.Balances ∧
      (Scene.Run (Call.Admitted .serving) World.Elsewhere { world := w } s →
        s.world.engine.stats.alertsOpened =
          s.world.engine.stats.alertsResolved + s.world.engine.tracker.summary.openAlerts) := by
  obtain ⟨st, holders, sound⟩ :=
    (Scene.sound_begins begins begins.accounted).run (kept_accounted .mixed) bears_accounted run (by simp)
  have property := sound.property
  have tagged := sound.orderly.tagged
  rw [sound.nobody finished] at property tagged
  refine ⟨property.balances tagged, fun run' => ?_⟩
  obtain ⟨st', holders', sound'⟩ := (Scene.sound_begins begins begins.told).run kept_told
    (bears_accounts (P := fun _ a x => a.Told x)) run' (by simp)
  have told' := sound'.property
  rw [sound'.nobody finished] at told'
  exact World.Booked.open_alerts (property.booked "" fun _ _ => rfl) told'

/-- The sink is away while the load rises and falls: both events wait. -/
theorem Scene.no_event_lost_on_high_load :
    let away : Script := { default := { deed := .fail (.unavailable "away") } }
    let w : World := .watched { workers := 1 } { create := away }
    let s := ((Scene.make { world := w } .refresh).make (.sample "load" 95 default)).make
      (.sample "load" 50 default)
    s.world.waiting.length = 2 ∧ s.world.Balances ∧
      s.world.engine.stats.alertsOpened =
        s.world.engine.stats.alertsResolved + s.world.engine.tracker.summary.openAlerts := by
  intro away w s
  have run {regime : Regime} (serves : regime ≠ .recovering) :
      Scene.Run (Call.Admitted regime) World.Elsewhere { world := w } s :=
    ((Scene.run_make _ serves).trans (Scene.run_make _ serves)).trans (Scene.run_make _ serves)
  have finished : s.AllFinished := Scene.allFinished_of_results (by decide +kernel)
  obtain ⟨balances, opened⟩ := Scene.no_event_lost (World.begins_watched _ _) (run nofun) finished
  exact ⟨by decide +kernel, balances, opened (run nofun)⟩

end ThresholdAlerts
