import ThresholdAlerts.Proofs.Conduct
import ThresholdAlerts.Proofs.Maps
/-! The programs of the calls keep to the conduct, one after the other: the delivery of events, the work
on one rule, the reading of the rules, and the calls themselves. -/
namespace ThresholdAlerts

open Relation

variable {regime : Regime} {T : Type} {tasks : T → Prop} {rule : RuleId} {id : SlotId}
  {ticket : Ticket} {w w' : World}

theorem Edit.relies {work : Work} {x : Option Work} (edit : Edit regime rule id w work w' x) :
    w.Relies regime w' :=
  .of_rules edit.paces.clock edit.rules

/-! ### Whether a slot is to go -/

theorem Tracker.retired_setOutbox (t : Tracker) (id : SlotId) (outbox : Outbox) :
    ((t.setOutbox id outbox).slot id).retired = (t.slot id).retired := by
  rw [World.slot_setOutbox]

theorem World.retired_queueBehind (w : World) (id : SlotId) (event : Event) :
    ((w.queueBehind id event).slot id).retired = (w.slot id).retired := by
  cases cancels : (w.slot id).outbox.cancelledBy? event with
  | some d =>
      rw [World.queueBehind_of_cancelled cancels]
      exact w.engine.tracker.retired_setOutbox id _
  | none =>
      by_cases room : (w.slot id).outbox.length < Outbox.capacity
      · rw [World.queueBehind_of_room cancels room]
        exact w.engine.tracker.retired_setOutbox id _
      · rw [World.queueBehind_of_full cancels (Nat.le_of_not_lt room), World.slot_markBacklogged, World.slot_abandon]
        exact w.engine.tracker.retired_setOutbox id _

theorem World.retired_firstFailure (w : World) (id : SlotId) (event : Event) (error : SinkError) :
    ((w.firstFailure id event error).slot id).retired = (w.slot id).retired := by
  cases again : (w.count .sinkFailure).triesAgain error 1 with
  | true =>
      rw [World.firstFailure_of_again id event again, World.slot_markBacklogged]
      exact w.engine.tracker.retired_setOutbox id _
  | false =>
      rw [World.firstFailure_of_last id event again, World.slot_abandon]
      rfl

theorem World.retired_change (w : World) (id : SlotId) (c : FiringState.Change) :
    ((w.change id c).1.slot id).retired = (w.slot id).retired := by
  rw [World.slot_change]

theorem World.retired_judge (w : World) (id : SlotId) (r : Rule) (value : Float) (time : Timestamp) :
    ((w.judge id r value time).1.slot id).retired = (w.slot id).retired := by
  rw [World.judge]
  cases r.breaches value with
  | error e => rfl
  | ok breached =>
      let synced := ((w.count .evaluation).change id (.sync r time)).1
      obtain ⟨ids, same⟩ := World.transition_fst synced id r breached value time
      have slot : ((synced.transition id r breached value time).1.slot id).retired = (synced.slot id).retired := by
        rw [same]
        exact World.retired_change ..
      exact slot.trans (World.retired_change ..)

theorem World.retired_seed (w : World) (id : SlotId) (alertId : AlertId) :
    ((w.onTracker fun t => (t.seed id alertId).1).slot id).retired = (w.slot id).retired := by
  change ((w.engine.tracker.seed id alertId).1.slot id).retired = (w.engine.tracker.slot id).retired
  rw [Tracker.seed]
  cases (w.engine.tracker.slot id).state.isOpen with
  | true => rfl
  | false =>
      change ((Tracker.update _ id _).slot id).retired = _
      rw [Tracker.slot_update]

/-! ### The delivery of events -/

theorem follows_dispatch {work : Work} {event : Event} {todo : List Event}
    {ends : Unit → Stance → World → Prop}
    (hand : Edit regime rule id w work (w.hand event) (some { todo, stage := .handed event }))
    (goes : ∀ w', w.Relies regime w' → (w'.slot id).retired = (w.slot id).retired →
      ends () (.holding rule id ticket { todo }) w') :
    (dispatch id event).Follows regime tasks (.holding rule id ticket work) w ends := by
  refine follows_modify (Stance.edit hand) (follows_read ?_)
  cases outbox : ((w.hand event).slot id).outbox with
  | nil =>
      rw [List.isEmpty_nil, if_pos rfl]
      refine follows_request ⟨rfl, outbox, fun w' relies alike => ?_⟩
      have relies := hand.relies.trans relies
      have same : (w'.slot id).retired = (w.slot id).retired := alike.retired
      refine ⟨goes w' relies same, fun error => ?_⟩
      have failure : Edit regime rule id w' { todo, stage := .failed event error }
          (w'.firstFailure id event error) (some { todo }) :=
        .firstFailure (alike.outbox.trans outbox)
      exact follows_modify (Stance.edit failure)
        (goes _ (relies.trans failure.relies) ((w'.retired_firstFailure id event error).trans same))
  | cons d rest =>
      have waits : ((w.hand event).slot id).outbox ≠ [] := outbox ▸ List.cons_ne_nil d rest
      have behind : Edit regime rule id (w.hand event) { todo, stage := .handed event }
          ((w.hand event).queueBehind id event) (some { todo }) := .queueBehind waits
      exact follows_modify (Stance.edit behind)
        (goes _ (hand.relies.trans behind.relies) ((w.hand event).retired_queueBehind id event))

theorem follows_dispatchAll {todo : List Event} {ends : Unit → Stance → World → Prop}
    (goes : ∀ w', (w'.slot id).retired = (w.slot id).retired → ends () (.holding rule id ticket {}) w') :
    (dispatchAll id todo).Follows regime tasks (.holding rule id ticket { todo }) w ends := by
  induction todo generalizing w with
  | nil => exact follows_pure (goes w rfl)
  | cons event rest ih =>
      refine follows_then ?_
      exact follows_dispatch .hand fun w₁ _ same => ih fun w' same' => goes w' (same'.trans same)

/-! ### Work on one rule -/

theorem judge_steps {r : Rule} (serves : regime ≠ .recovering) (known : w.rule? rule = some r)
    (kept : (w.slot id).retired = false) (value : Float) (time : Timestamp) :
    ReflTransGen (Stance.Step regime) (w, .holding rule id ticket {})
      ((w.judge id r value time).1, .holding rule id ticket { todo := (w.judge id r value time).2 }) := by
  rw [World.judge]
  cases judged : r.breaches value with
  | error e => exact Stance.chore (chore_count ⟨rfl, rfl, rfl, rfl, rfl⟩) rfl
  | ok breached =>
      have counted : w.Chore regime (w.count .evaluation) := chore_count ⟨rfl, rfl, rfl, rfl, rfl⟩
      have synced : Edit regime rule id (w.count .evaluation) {}
          ((w.count .evaluation).change id (.sync r time)).1
          (some { todo := [] ++ ((w.count .evaluation).change id (.sync r time)).2.toList }) :=
        .change _ serves trivial
      have known₁ : ((w.count .evaluation).change id (.sync r time)).1.rule? rule = some r := by
        rw [World.rule?, (World.spares_change ..).rules]
        exact known
      have kept₁ : (((w.count .evaluation).change id (.sync r time)).1.slot id).retired = false := by
        rw [World.slot_change]
        exact kept
      exact (Stance.chore counted rfl).trans ((Stance.edit synced).trans
        (Stance.edit (.transition breached value time serves known₁ kept₁ judged)))

theorem follows_dismiss (kept : (w.slot id).retired = false) : ReflTransGen (Stance.Step regime) (w, .holding rule id ticket {})
    (w.dismiss id, .free) := by
  rw [World.dismiss]
  cases opened : (w.slot id).state.isOpen with
  | true =>
      rw [if_pos rfl]
      exact Stance.edit (.leave (Slot.tidy_of_kept kept))
  | false =>
      rw [if_neg Bool.false_ne_true]
      exact (Stance.edit (.retire (.inl opened))).trans (Stance.edit .release)

theorem reconcile_steps (serves : regime ≠ .recovering) (announced : Bool) :
    ReflTransGen (Stance.Step regime) (w, .holding rule id ticket {})
      ((w.reconcile id rule announced).1,
        .holding rule id ticket { todo := (w.reconcile id rule announced).2.toList }) := by
  rw [World.reconcile]
  refine (Stance.chore chore_readCalendar rfl).trans ?_
  generalize w.readCalendar = reading
  obtain ⟨w₁, now⟩ := reading
  dsimp only
  cases w₁.rule? rule with
  | some r =>
      refine Stance.edit (.change _ serves ?_)
      cases announced <;> exact trivial
  | none =>
      have forced : Edit regime rule id w₁ {} (w₁.change id (.force .ruleRemoved now)).1
          (some { todo := [] ++ (w₁.change id (.force .ruleRemoved now)).2.toList }) :=
        .change _ serves trivial
      have closed : ((w₁.change id (.force .ruleRemoved now)).1.slot id).state.isOpen = false := by
        rw [World.slot_change]
        rfl
      exact (Stance.edit forced).trans (Stance.edit (.retire (.inl closed)))

theorem follows_evaluate (serves : regime ≠ .recovering) (metric : String) (value : Float)
    (time : Timestamp) (w : World) :
    (evaluate rule metric value time).Follows regime tasks .free w Ends := by
  refine follows_request ⟨rfl, fun w' id ticket _ kept => follows_read ?_⟩
  cases watched : (w'.rule? rule).filter (·.metricKey = metric) with
  | none => exact follows_modify (follows_dismiss kept) (follows_pure rfl)
  | some r =>
      have known : w'.rule? rule = some r := (Option.filter_eq_some_iff.mp watched).1
      refine follows_step (judge_steps serves known kept value time) ?_
      refine follows_then ?_
      refine follows_dispatchAll fun w'' same => ?_
      have kept' := (same.trans (w'.retired_judge id r value time)).trans kept
      exact follows_modify (Stance.edit (.leave (Slot.tidy_of_kept kept'))) (follows_pure rfl)

theorem follows_reconcileRule {ends : List Event → Stance → World → Prop}
    (serves : regime ≠ .recovering) (announced : Bool) (w : World)
    (goes : ∀ events w', ends events .free w') :
    (reconcileRule rule announced).Follows regime tasks .free w ends := by
  refine follows_request ⟨rfl, fun w' _ => ⟨fun _ => follows_pure (goes _ _), fun id ticket _ _ => ?_⟩⟩
  refine follows_step (reconcile_steps serves announced) ?_
  refine follows_then ?_
  refine follows_dispatchAll fun w'' _ => ?_
  exact follows_modify (Stance.edit .release) (follows_pure (goes _ _))

theorem slot_delivered (w : World) (id : SlotId) (front : Delivery) (rest : Outbox) :
    (w.delivered id front rest).slot id = { w.slot id with outbox := rest } := by
  rw [World.delivered]
  split <;> exact World.slot_setOutbox _ id _

theorem outbox_failedAgain {front : Delivery} {rest : Outbox} {error : SinkError}
    (gone : (w.failedAgain id front rest error).2 = true) :
    ((w.failedAgain id front rest error).1.slot id).outbox = rest := by
  simp only [World.failedAgain] at gone ⊢
  split at gone
  · exact absurd gone Bool.false_ne_true
  next given =>
    rw [if_neg given, World.slot_abandon]
    exact congrArg Slot.outbox (World.slot_setOutbox _ id rest)

theorem outbox_failedAgain_kept {front : Delivery} {rest : Outbox} {error : SinkError}
    (kept : (w.failedAgain id front rest error).2 = false) :
    ∃ front', 0 < front'.failures ∧
      ((w.failedAgain id front rest error).1.slot id).outbox = front' :: rest := by
  simp only [World.failedAgain] at kept ⊢
  split at kept
  next again =>
    rw [if_pos again]
    refine ⟨_, ?_, congrArg Slot.outbox (World.slot_setOutbox _ id _)⟩
    exact Delivery.failures_counted rfl
  · exact absurd kept.symm Bool.false_ne_true

/-- Whatever was not tried yet is due, so that the outbox is worked off up to an event that was tried. -/
theorem follows_drain {now : Duration} {outbox : Outbox} {report : RetryReport}
    {ends : RetryReport → Stance → World → Prop} (here : (w.slot id).outbox = outbox)
    (past : now ≤ w.clock) (ripe : Outbox.Ripe outbox now)
    (goes : ∀ report w', (∀ front ∈ (w'.slot id).outbox.head?, 0 < front.failures) →
      ends report (.holding rule id ticket { stage := .draining }) w') :
    (drain id now outbox report).Follows regime tasks (.holding rule id ticket { stage := .draining }) w ends := by
  induction outbox generalizing w report with
  | nil =>
      refine follows_pure (goes _ _ ?_)
      rw [here]
      exact fun front mem => absurd mem (by simp)
  | cons front rest ih =>
      have ripe' : Outbox.Ripe rest now := ripe.subset (List.subset_cons_self front rest)
      rw [drain]
      cases due : front.isDue now with
      | false =>
          refine follows_pure (goes _ _ ?_)
          rw [here]
          rintro _ ⟨⟩
          refine Nat.pos_of_ne_zero fun untried => ?_
          exact absurd (ripe front List.mem_cons_self untried) (by simp [due])
      | true =>
          have due' : ∀ d ∈ (w.slot id).outbox.head?, d.isDue w.clock = true := by
            rw [here]
            rintro _ ⟨⟩
            exact Delivery.isDue_of_le due past
          refine follows_request ⟨⟨front, rest, here, rfl⟩, due', fun w' relies alike => ?_⟩
          have past' : now ≤ w'.clock := Nat.le_trans past relies.clock
          have waits : (w'.slot id).outbox = front :: rest := alike.outbox.trans here
          have delivered : Edit regime rule id w' { stage := .accepted }
              (w'.delivered id front rest) (some { stage := .draining }) := .delivered waits
          refine ⟨follows_modify (Stance.edit delivered) (ih ?_ ?_ ripe'), fun error => ?_⟩
          · exact congrArg Slot.outbox (slot_delivered w' id front rest)
          · exact Nat.le_trans past' delivered.relies.clock
          · have failed : Edit regime rule id w' { stage := .refused error }
                (w'.failedAgain id front rest error).1 (some { stage := .draining }) := .failedAgain waits
            refine follows_step (Stance.edit failed) ?_
            cases gone : (w'.failedAgain id front rest error).2 with
            | true => exact ih (outbox_failedAgain gone) (Nat.le_trans past' failed.relies.clock) ripe'
            | false =>
                obtain ⟨front', tried, left⟩ := outbox_failedAgain_kept gone
                refine follows_pure (goes _ _ ?_)
                rw [left]
                rintro _ ⟨⟩
                exact tried

theorem follows_retryRule {report : RetryReport} {ends : RetryReport → Stance → World → Prop}
    (w : World) (goes : ∀ report w', ends report .free w') :
    (retryRule rule report).Follows regime tasks .free w ends := by
  refine follows_request ⟨rfl, fun w' _ => ⟨fun absent => ?_, fun id ticket ripe _ => ?_⟩⟩
  · exact follows_modify (Stance.chore (chore_unmarkBacklogged absent) rfl) (follows_pure (goes _ _))
  · refine follows_read (follows_look (Stance.edit .drains) (follows_then ?_))
    refine follows_drain rfl (Nat.le_refl _) ripe fun report w'' tried => follows_read ?_
    split
    · next empty =>
      refine follows_modify ?_ (follows_pure (goes _ _))
      exact (Stance.edit (.unmark (List.eq_nil_of_length_eq_zero empty))).trans (Stance.edit .release)
    · next waits =>
      have waits : (w''.slot id).outbox ≠ [] := mt (congrArg List.length) waits
      refine follows_modify ?_ (follows_pure (goes _ _))
      exact (Stance.edit (.drained waits tried)).trans (Stance.edit (.leave fun _ => waits))

/-! ### Reading the rules -/

def Fetched (result : Except SourceError RuleSnapshot) (w : World) : Prop :=
  ∀ snapshot, result = .ok snapshot → w.engine.rules.snapshot = snapshot ∧ snapshot.Sound

theorem follows_fetchRules {ends : Except SourceError RuleSnapshot → Stance → World → Prop}
    (blank : regime = .recovering → w.engine.rules.snapshot.generation = 0)
    (goes : ∀ result w', Fetched result w' → ends result (.refreshing ticket) w') :
    (fetchRules : Prog T _).Follows regime tasks (.refreshing ticket) w ends := by
  refine follows_modify (Stance.chore (chore_onRules rfl) rfl) ?_
  refine follows_request fun answer w' relies => ?_
  cases answer with
  | ok rules =>
      have once : regime = .recovering → w'.engine.rules.snapshot.generation = 0 :=
        fun recovers => (congrArg _ (relies.rules recovers)).trans (blank recovers)
      refine follows_step (Stance.chore (chore_loadRules rules once) rfl) (follows_pure (goes _ _ ?_))
      intro snapshot same
      obtain rfl := Except.ok.inj same
      exact ⟨rfl, RuleSnapshot.sound_build rules _ _⟩
  | error e =>
      refine follows_modify (Stance.chore (chore_onRules rfl) rfl) (follows_pure (goes _ _ ?_))
      intro snapshot same
      exact absurd same (by simp)

theorem follows_refreshRules {ends : Except SourceError RuleSnapshot → Stance → World → Prop}
    (blank : regime = .recovering → w.engine.rules.snapshot.generation = 0)
    (goes : ∀ result w', Fetched result w' → ends result .free w') :
    (refreshRules : Prog T _).Follows regime tasks .free w ends := by
  refine follows_request ⟨rfl, fun w' ticket relies => ?_⟩
  refine follows_then ?_
  have blank' : regime = .recovering → w'.engine.rules.snapshot.generation = 0 :=
    fun recovers => (congrArg _ (relies.rules recovers)).trans (blank recovers)
  refine follows_fetchRules blank' fun result w'' fetched => ?_
  exact follows_modify Stance.yields (follows_pure (goes result _ fetched))

theorem follows_currentRules {ends : RuleSnapshot → Stance → World → Prop}
    (serves : regime ≠ .recovering) (w : World) (goes : ∀ snapshot w', ends snapshot .free w') :
    (currentRules : Prog T _).Follows regime tasks .free w ends := by
  refine follows_read ?_
  split
  · refine follows_request ⟨rfl, fun w' ticket _ => follows_read ?_⟩
    split
    · refine follows_then ?_
      refine follows_fetchRules (fun recovers => absurd recovers serves) fun result w'' _ => ?_
      exact follows_modify Stance.yields (follows_read (follows_pure (goes _ _)))
    · exact follows_modify Stance.yields (follows_read (follows_pure (goes _ _)))
  · exact follows_read (follows_pure (goes _ _))

/-! ### Calls -/

def Visit.Follows (regime : Regime) (v : Visit) : Prop :=
  ∀ w, v.program.Follows regime (fun _ => True) .free w Ends

theorem Visit.follows (serves : regime ≠ .recovering) (v : Visit) : v.Follows regime := by
  intro w
  cases v with
  | evaluate rule metric value time => exact follows_evaluate serves metric value time w
  | reconcile rule announced => exact follows_reconcileRule serves announced w fun _ _ => rfl

theorem follows_all {visits : List Visit} {ends : List Event → Stance → World → Prop}
    (serves : regime ≠ .recovering) (goes : ∀ events w', ends events .free w') :
    (Prog.all visits).Follows regime (Visit.Follows regime) .free w ends :=
  ⟨rfl, serves, fun v _ => v.follows serves, fun _ _ => goes _ _⟩

theorem follows_reconcileIfNewer {generation : Nat} {ends : List Event → Stance → World → Prop}
    (serves : regime ≠ .recovering) (w : World) (goes : ∀ events w', ends events .free w') :
    (reconcileIfNewer generation).Follows regime (Visit.Follows regime) .free w ends := by
  refine follows_step (Stance.chore (chore_claimGeneration generation)
    (congrArg RuleStore.turns (rules_claimGeneration w generation))) ?_
  split
  · exact follows_read (follows_all serves goes)
  · exact follows_pure (goes _ _)

theorem follows_evaluateAll {ends : List Event → Stance → World → Prop}
    (serves : regime ≠ .recovering) (snapshot : RuleSnapshot) (metric : String) (value : Float)
    (time : Timestamp) (w : World) (goes : ∀ events w', ends events .free w') :
    (evaluateAll snapshot metric value time).Follows regime (Visit.Follows regime) .free w ends := by
  refine follows_then ?_
  refine follows_reconcileIfNewer serves w fun reconciled w₁ => ?_
  split
  · exact follows_pure (goes _ _)
  · refine follows_then ?_
    exact follows_all serves fun evaluated w₂ => follows_pure (goes _ _)

theorem follows_takeSample {ends : List Event → Stance → World → Prop}
    (serves : regime ≠ .recovering) (metric : String) (value : Float) (time : Timestamp) (w : World)
    (goes : ∀ events w', ends events .free w') :
    (takeSample metric value time).Follows regime (Visit.Follows regime) .free w ends := by
  have rest (w : World) : (currentRules >>= fun snapshot => evaluateAll snapshot metric value time).Follows
      regime (Visit.Follows regime) .free w ends := by
    refine follows_then ?_
    exact follows_currentRules serves w fun snapshot w₁ => follows_evaluateAll serves snapshot _ _ _ w₁ goes
  refine follows_modify (Stance.chore (chore_count ⟨rfl, rfl, rfl, rfl, rfl⟩) rfl) ?_
  split
  · exact follows_modify (Stance.chore (chore_count ⟨rfl, rfl, rfl, rfl, rfl⟩) rfl) (rest _)
  · exact rest _

theorem follows_announceEdit {ends : Except EngineError (List Event) → Stance → World → Prop}
    (serves : regime ≠ .recovering) (rule : RuleId) (w : World)
    (goes : ∀ result w', ends result .free w') :
    (announceEdit rule).Follows regime (Visit.Follows regime) .free w ends := by
  refine follows_modify (Stance.chore (chore_onRules rfl) rfl) ?_
  refine follows_then ?_
  refine follows_refreshRules (fun recovers => absurd recovers serves) fun result w₁ _ => ?_
  cases result with
  | error e =>
      refine follows_modify (Stance.chore (chore_onRules rfl) rfl) ?_
      refine follows_then ?_
      exact follows_reconcileRule serves true _ fun _ _ => follows_pure (goes _ _)
  | ok snapshot =>
      refine follows_then ?_
      refine follows_reconcileIfNewer serves w₁ fun reconciled w₂ => ?_
      refine follows_then ?_
      exact follows_reconcileRule serves true w₂ fun _ _ => follows_pure (goes _ _)

theorem follows_refresh {ends : Except EngineError (List Event) → Stance → World → Prop}
    (serves : regime ≠ .recovering) (w : World) (goes : ∀ result w', ends result .free w') :
    refresh.Follows regime (Visit.Follows regime) .free w ends := by
  refine follows_then ?_
  refine follows_refreshRules (fun recovers => absurd recovers serves) fun result w₁ _ => ?_
  cases result with
  | error e => exact follows_pure (goes _ _)
  | ok snapshot =>
      refine follows_then ?_
      exact follows_reconcileIfNewer serves w₁ fun _ _ => follows_pure (goes _ _)

theorem follows_retryRules {rules : List RuleId} {report : RetryReport}
    {ends : RetryReport → Stance → World → Prop} (w : World)
    (goes : ∀ report w', ends report .free w') :
    (retryRules rules report).Follows regime tasks .free w ends := by
  induction rules generalizing w report with
  | nil => exact follows_pure (goes _ _)
  | cons rule rest ih =>
      refine follows_then ?_
      exact follows_retryRule w fun report w' => ih w'

theorem follows_summarize {slots : List SlotId} {summary : TrackerSummary}
    {ends : TrackerSummary → Stance → World → Prop} (w : World)
    (below : ∀ id ∈ slots, id < w.engine.tracker.nextSlot)
    (goes : ∀ summary w', ends summary .free w') :
    (summarize slots summary).Follows regime tasks .free w ends := by
  induction slots generalizing w summary with
  | nil => exact follows_pure (goes _ _)
  | cons id rest ih =>
      obtain ⟨here, later⟩ := List.forall_mem_cons.mp below
      refine follows_request ⟨rfl, here, fun w' relies ages => ?_⟩
      have still : ∀ id ∈ rest, id < w'.engine.tracker.nextSlot :=
        fun id mem => Nat.lt_of_lt_of_le (later id mem) ages.nextSlot
      refine ⟨ih w' still, fun rule ticket tidy => follows_step (Stance.edit (.leave tidy)) (ih _ ?_)⟩
      have same : (w'.leave id).engine.tracker.nextSlot = w'.engine.tracker.nextSlot :=
        Tracker.nextSlot_leave _ id
      exact same.symm ▸ still

theorem follows_health {ends : EngineHealth → Stance → World → Prop} (w : World)
    (coherent : w.engine.tracker.Coherent) (goes : ∀ health w', ends health .free w') :
    health.Follows regime tasks .free w ends := by
  refine follows_read (follows_then ?_)
  refine follows_summarize w (fun id mem => ?_) fun summary w' => ?_
  · obtain ⟨rule, found⟩ := mem_values.mp mem
    exact coherent.below (coherent.get found)
  · exact ⟨_, .refl, _, Stance.chore chore_readCalendar rfl, goes _ _⟩

/-! ### Recovery -/

theorem follows_seedRules {found : List (RuleId × Except SinkError (Option Alert))}
    {report : RecoveryReport} {ends : Except SinkError RecoveryReport → Stance → World → Prop}
    (mixes : regime ≠ .serving) (snapshot : RuleSnapshot) (w : World)
    (loaded : regime = .recovering → w.engine.rules.snapshot = snapshot)
    (known : ∀ pair ∈ found, ∃ r, snapshot.get? pair.1 = some r)
    (goes : ∀ result w', w.Relies regime w' → ends result .free w') :
    (seedRules found report : Prog T _).Follows regime tasks .free w ends := by
  induction found generalizing w report with
  | nil => exact follows_pure (goes _ _ (.of_rules rfl rfl))
  | cons pair rest ih =>
      obtain ⟨rule, answer⟩ := pair
      have known' : ∀ pair ∈ rest, ∃ r, snapshot.get? pair.1 = some r :=
        fun pair mem => known pair (List.mem_cons_of_mem _ mem)
      cases answer with
      | error e => exact follows_pure (goes _ _ (.of_rules rfl rfl))
      | ok open? =>
          cases open? with
          | none => exact ih w loaded known' goes
          | some alert =>
              refine follows_request ⟨rfl, fun w' id ticket relies kept => ?_⟩
              have loaded' : regime = .recovering → w'.engine.rules.snapshot = snapshot :=
                fun recovers => (relies.rules recovers).trans (loaded recovers)
              have seeds : Edit regime rule id w' {}
                  (w'.onTracker fun t => (t.seed id alert.id).1) (some {}) := by
                refine .seed alert.id mixes (fun recovers => ?_) kept
                obtain ⟨r, got⟩ := known _ List.mem_cons_self
                rw [World.rule?, loaded' recovers]
                exact ⟨r, got⟩
              have left : w'.Relies regime
                  ((w'.onTracker fun t => (t.seed id alert.id).1).leave id) := .of_rules rfl rfl
              have kept' := (w'.retired_seed id alert.id).trans kept
              refine follows_step ((Stance.edit seeds).trans (Stance.edit (.leave (Slot.tidy_of_kept kept')))) ?_
              refine ih _ loaded' known' fun result w'' relies' => ?_
              exact goes _ _ (relies.trans (left.trans relies'))

theorem follows_trackedAlert {ends : Option AlertId → Stance → World → Prop} (w : World)
    (goes : ∀ result w', w.Relies regime w' → ends result .free w') :
    (trackedAlert rule : Prog T _).Follows regime tasks .free w ends := by
  refine follows_request ⟨rfl, fun w' relies => ⟨fun _ => follows_pure (goes _ _ relies), fun id ticket _ tidy => ?_⟩⟩
  exact ⟨_, .refl, _, Stance.edit (.leave tidy), goes _ _ (relies.trans (.of_rules rfl rfl))⟩

theorem follows_resolveStray {alert : Alert} {orphaned : Bool} {ends : Unit → Stance → World → Prop}
    (mixes : regime ≠ .serving) (w : World)
    (orphan : regime = .recovering → orphaned = true → w.rule? alert.ruleId = none)
    (goes : ∀ w', w.Relies regime w' → ends () .free w') :
    (resolveStray alert orphaned : Prog T _).Follows regime tasks .free w ends := by
  refine follows_step (Stance.chore chore_readCalendar rfl) ?_
  refine follows_request ⟨rfl, fun w' id ticket relies kept => follows_then ?_⟩
  refine follows_dispatch (.handStray mixes rfl rfl) fun w'' relies' same => ?_
  have reads : w.Relies regime w.readCalendar.1 := .of_rules rfl rfl
  have relies₂ : w.Relies regime w'' := (reads.trans relies).trans relies'
  cases orphaned with
  | false =>
      have tidy := Slot.tidy_of_kept (same.trans kept)
      exact ⟨_, .refl, _, Stance.edit (.leave tidy), goes _ (relies₂.trans (.of_rules rfl rfl))⟩
  | true =>
      refine ⟨_, .refl, _, (Stance.edit (.retire (.inr ⟨mixes, fun recovers => ?_⟩))).trans
        (Stance.edit .release), goes _ (relies₂.trans (.of_rules rfl rfl))⟩
      rw [World.rule?, relies₂.rules recovers]
      exact orphan recovers rfl

theorem follows_resolveStrays {alerts : List Alert} {report : RecoveryReport}
    {ends : RecoveryReport → Stance → World → Prop} (mixes : regime ≠ .serving)
    (snapshot : RuleSnapshot) (w : World)
    (loaded : regime = .recovering → w.engine.rules.snapshot = snapshot)
    (goes : ∀ report w', ends report .free w') :
    (resolveStrays snapshot alerts report : Prog T _).Follows regime tasks .free w ends := by
  induction alerts generalizing w report with
  | nil => exact follows_pure (goes _ _)
  | cons alert rest ih =>
      refine follows_then (follows_trackedAlert w fun tracked w₁ relies => ?_)
      have loaded₁ : regime = .recovering → w₁.engine.rules.snapshot = snapshot :=
        fun recovers => (relies.rules recovers).trans (loaded recovers)
      have after {w₂ : World} (relies : w₁.Relies regime w₂) :
          regime = .recovering → w₂.engine.rules.snapshot = snapshot :=
        fun recovers => (relies.rules recovers).trans (loaded₁ recovers)
      split
      · exact ih w₁ loaded₁
      · cases there : snapshot.contains alert.ruleId with
        | true =>
            refine follows_then (follows_resolveStray mixes w₁ ?_ fun w₂ relies => ih w₂ (after relies))
            exact fun _ orphan => absurd orphan Bool.false_ne_true
        | false =>
            refine follows_then (follows_resolveStray mixes w₁ ?_ fun w₂ relies => ih w₂ (after relies))
            intro recovers _
            rw [World.rule?, loaded₁ recovers, RuleSnapshot.get?, Std.TreeMap.get?_eq_getElem?,
              Std.TreeMap.getElem?_eq_none_of_contains_eq_false there]

theorem RuleSnapshot.get?_of_mem_rules {s : RuleSnapshot} (sound : s.Sound) {r : Rule}
    (mem : r ∈ s.rules) : s.get? r.id = some r := by
  obtain ⟨id, got⟩ := mem_values.mp mem
  have got : s.get? id = some r := by
    rw [get?, Std.TreeMap.get?_eq_getElem?, got]
  rw [sound.named got, got]

theorem World.mem_listed {s : RuleSnapshot} : rule ∈ w.listed s ↔ ∃ r ∈ s.rules, r.id = rule := by
  rw [listed, (w.mapOrder.perm ..).mem_iff, List.mem_map]

theorem RuleSnapshot.Sound.known_of_listed {s : RuleSnapshot} (sound : s.Sound) (mem : rule ∈ w.listed s) :
    ∃ r, s.get? rule = some r := by
  obtain ⟨r, there, rfl⟩ := World.mem_listed.mp mem
  exact ⟨r, RuleSnapshot.get?_of_mem_rules sound there⟩

theorem follows_recover {ends : Except EngineError RecoveryReport → Stance → World → Prop}
    (mixes : regime ≠ .serving) (w : World)
    (blank : regime = .recovering → w.engine.rules.snapshot.generation = 0)
    (goes : ∀ result w', ends result .free w') :
    (recover : Prog T _).Follows regime tasks .free w ends := by
  refine follows_then (follows_refreshRules blank fun result w₁ fetched => ?_)
  cases result with
  | error e => exact follows_pure (goes _ _)
  | ok snapshot =>
      obtain ⟨loaded, sound⟩ := fetched snapshot rfl
      have claims : w₁.Chore regime (w₁.claimGeneration snapshot.generation).1 :=
        chore_claimGeneration _
      have same := rules_claimGeneration w₁ snapshot.generation
      refine follows_step (Stance.chore claims (congrArg RuleStore.turns same)) (follows_read ?_)
      refine follows_request ⟨rfl, fun found w₂ relies => ?_⟩
      have loaded₂ : regime = .recovering → w₂.engine.rules.snapshot = snapshot :=
        fun recovers => (relies.rules recovers).trans ((congrArg _ same).trans loaded)
      have known (w₁ : World) : ∀ pair ∈ (w₁.listed snapshot).zip found, ∃ r, snapshot.get? pair.1 = some r :=
        fun pair mem => sound.known_of_listed (List.of_mem_zip mem).1
      refine follows_then (follows_seedRules mixes snapshot w₂ loaded₂ (known _) fun seeded w₃ relies => ?_)
      have loaded₃ : regime = .recovering → w₃.engine.rules.snapshot = snapshot :=
        fun recovers => (relies.rules recovers).trans (loaded₂ recovers)
      cases seeded with
      | error e => exact follows_pure (goes _ _)
      | ok report =>
          refine follows_request ⟨rfl, fun listed w₄ relies => ?_⟩
          cases listed with
          | error e => exact follows_pure (goes _ _)
          | ok alerts =>
              have loaded₄ : regime = .recovering → w₄.engine.rules.snapshot = snapshot :=
                fun recovers => (relies.rules recovers).trans (loaded₃ recovers)
              exact follows_then (follows_resolveStrays mixes snapshot w₄ loaded₄
                fun report w₅ => follows_pure (goes _ _))

/-- The calls that may be made. -/
def Call.Admitted (regime : Regime) : Call → Prop
  | .recover => regime ≠ .serving
  | _ => regime ≠ .recovering

theorem Call.Admitted.mixed {c : Call} (h : c.Admitted .serving) : c.Admitted .mixed := by
  cases c with
  | recover => exact absurd rfl h
  | _ => exact nofun

inductive Call.Single : Call → Prop
  | recover : Single .recover
  | retry : Single .retry
  | health : Single .health

theorem Call.Single.follows {tasks : Visit → Prop} {c : Call} (single : c.Single) (admitted : c.Admitted regime) (w : World)
    (coherent : w.engine.tracker.Coherent) (blank : regime = .recovering → w.engine.rules.snapshot.generation = 0) :
    c.program.Follows regime tasks .free w Ends := by
  cases single with
  | recover =>
      refine follows_then (follows_recover admitted w blank fun result _ => ?_)
      cases result <;> exact follows_pure rfl
  | retry =>
      refine follows_then (follows_read ?_)
      exact follows_retryRules w fun _ _ => follows_pure rfl
  | health => exact follows_then (follows_health w coherent fun _ _ => follows_pure rfl)

/-- The calls keep to the conduct, whatever others do while they wait. -/
theorem Call.follows {c : Call} (admitted : c.Admitted regime) (w : World)
    (coherent : w.engine.tracker.Coherent)
    (blank : regime = .recovering → w.engine.rules.snapshot.generation = 0) :
    c.program.Follows regime (Visit.Follows regime) .free w Ends := by
  cases c with
  | sample metric value time =>
      exact follows_then (follows_takeSample admitted metric value time w fun _ _ => rfl)
  | announceEdit rule =>
      refine follows_then (follows_announceEdit admitted rule w fun result _ => ?_)
      cases result <;> exact follows_pure rfl
  | refresh =>
      refine follows_then (follows_refresh admitted w fun result _ => ?_)
      cases result <;> exact follows_pure rfl
  | recover => exact Call.Single.recover.follows admitted w coherent blank
  | retry => exact Call.Single.retry.follows admitted w coherent blank
  | health => exact Call.Single.health.follows admitted w coherent blank

end ThresholdAlerts
