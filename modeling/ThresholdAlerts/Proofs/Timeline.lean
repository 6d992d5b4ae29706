import ThresholdAlerts.Proofs.Draws
import ThresholdAlerts.Proofs.Ledger
import ThresholdAlerts.Proofs.Outages
/-! The timeline of a run: what happened in it, when, and what was drawn. Main statement: however calls,
answers and changes from outside are interleaved, the timeline of each rule can be posted to a ledger, so
that its events are delivered in order, not too often and not too early. -/
namespace ThresholdAlerts

open Function

variable {regime : Regime} {p : RetryPolicy} {log : List Stamped} {w w' w₀ : World} {s s' : Scene}
  {st : Place → Stance} {holders : RuleId → Option Work} {latest : List Happening}
  {admitted : Call → Prop} {outside : World → World → Prop}

def World.stamp (w w' : World) : Stamp where
  time := w.clock
  draw := (w.jitter.drawn w'.jitter).head?

/-- What happened in a step from one world to the next, the newest first. -/
def World.news (w w' : World) : List Stamped :=
  (w'.journal.take (w'.journal.length - w.journal.length)).map (⟨·, w.stamp w'⟩)

theorem World.news_eq (grown : w'.journal = latest ++ w.journal) :
    w.news w' = latest.map (⟨·, w.stamp w'⟩) := by
  rw [World.news, grown, List.length_append, Nat.add_sub_cancel_right, List.take_left]

theorem World.news_of_same (same : w'.journal = w.journal) : w.news w' = [] := by
  rw [World.news, same, Nat.sub_self, List.take_zero, List.map_nil]

/-- A run and what happened in it, the newest first. -/
inductive Scene.Timeline (admitted : Call → Prop) (outside : World → World → Prop) (s : Scene) :
    List Stamped → Scene → Prop
  | start : Timeline admitted outside s [] s
  | step {log s' s''} (before : Timeline admitted outside s log s')
      (step : Scene.Step admitted outside s' s'') :
      Timeline admitted outside s (s'.world.news s''.world ++ log) s''

/-- Every run has a timeline. -/
theorem Scene.Run.timeline (run : Scene.Run admitted outside s s') :
    ∃ log, Scene.Timeline admitted outside s log s' := by
  induction run with
  | refl => exact ⟨[], .start⟩
  | tail _ step ih =>
      obtain ⟨log, before⟩ := ih
      exact ⟨_, before.step step⟩

theorem Scene.Timeline.run (timeline : Scene.Timeline admitted outside s log s') :
    Scene.Run admitted outside s s' := by
  induction timeline with
  | start => exact .refl
  | step _ step ih => exact ih.tail step

/-! ### Ledgers of all rules -/

/-- The log tells what happened, and what it tells of each rule can be posted to a ledger that agrees with
the outbox of the rule. -/
structure World.Logged (p : RetryPolicy) (log : List Stamped) (now : Stamp) (w : World)
    (holders : RuleId → Option Work) : Prop where
  policy : w.engine.policy = p
  journal : log.map (·.what) = w.journal
  ledgers : ∀ rule, ∃ l, Ledger.Posted p (log.filter (·.what.ruleId = rule)) l ∧
    l.Agrees p now (w.account rule).outbox (holders rule)

theorem World.Logged.of_same {now : Stamp} (h : w.Logged p log now holders)
    (policy : w'.engine.policy = w.engine.policy) (journal : w'.journal = w.journal)
    (account : ∀ rule, w'.account rule = w.account rule) : w'.Logged p log now holders := by
  refine ⟨policy.trans h.policy, h.journal.trans journal.symm, fun rule => ?_⟩
  rw [account]
  exact h.ledgers rule

theorem World.Logged.of_steady {now : Stamp} (h : w.Logged p log now holders)
    (steady : ∀ rule, ∀ work ∈ holders rule, work.Steady) (later : Stamp) :
    w.Logged p log later holders := by
  refine ⟨h.policy, h.journal, fun rule => ?_⟩
  obtain ⟨l, posted, agrees⟩ := h.ledgers rule
  exact ⟨l, posted, agrees.of_steady (steady rule) later⟩

/-- If one value is taken in all, it is the one that is taken in any part of the time. -/
theorem Supply.drawn_once {α : Type} {a a' b b' : Supply α} (once : a'.taken ≤ a.taken + 1)
    (value : b.value = a.value) (first : a.taken ≤ b.taken) (last : b'.taken ≤ a'.taken) {x : α}
    (drawn : x ∈ b.drawn b') : (a.drawn a').head? = some x := by
  obtain ⟨n, early, late, rfl⟩ := mem_drawn.mp drawn
  have one : a'.taken - a.taken = 1 := by omega
  have same : n = a.taken := by omega
  rw [Supply.drawn, one, value, same]
  rfl

theorem filter_stamped (latest : List Happening) (now : Stamp) (rule : RuleId) :
    ((latest.map fun what => (⟨what, now⟩ : Stamped)).filter (·.what.ruleId = rule)) =
      (latest.filter (·.ruleId = rule)).map (⟨·, now⟩) := by
  rw [List.filter_map]
  rfl

theorem World.past_of_journal (grown : w'.journal = latest ++ w.journal) (rule : RuleId) :
    (w'.account rule).past = latest.filter (·.ruleId = rule) ++ (w.account rule).past := by
  rw [World.account, grown, List.filter_append]
  rfl

/-- What happens under a slot is logged. -/
theorem World.Logged.happens {rule : RuleId} {id : SlotId} {x : Option Work} {now : Stamp}
    (h : w.Logged p log now holders) (attended : w.Attended holders rule id)
    (happens : Happens regime rule id w (holders rule) w' x) (time : now.time = w.clock)
    (draw : ∀ drawn ∈ w.jitter.drawn w'.jitter, now.draw = some drawn)
    (range : p.maxAttempts ≤ Delivery.maxFailures)
    (grown : w'.journal = latest ++ w.journal) :
    w'.Logged p (latest.map (⟨·, now⟩) ++ log) now (update holders rule x) := by
  obtain ⟨rfl, journal, ledgers⟩ := h
  have advances := attended.advances happens
  refine ⟨happens.paces.policy, ?_, fun rule' => ?_⟩
  · rw [grown, List.map_append, journal, List.map_map]
    exact congrArg (· ++ w.journal) (List.map_id latest)
  · obtain ⟨l, posted, agrees⟩ := ledgers rule'
    have past := World.past_of_journal grown rule'
    rw [List.filter_append, filter_stamped]
    by_cases same : rule' = rule
    · subst same
      rw [update_self]
      obtain ⟨noted, l', past', agrees', posts⟩ := advances.turn.posted agrees time draw range
      rw [List.append_cancel_right (past.symm.trans past')]
      exact ⟨l', posts _ posted, agrees'⟩
    · rw [update_of_ne same, advances.others same] at *
      have none : latest.filter (·.ruleId = rule') = [] := List.append_left_eq_self.mp past.symm
      rw [none]
      exact ⟨l, posted, agrees⟩

def World.LoggedSince (p : RetryPolicy) (log : List Stamped) (w₀ w' w : World)
    (holders : RuleId → Option Work) : Prop :=
  w₀.Paces w ∧ ∃ news, w.journal = news ++ w₀.journal ∧
    (w.jitter.taken ≤ w'.jitter.taken →
      w.Logged p (news.map (⟨·, w₀.stamp w'⟩) ++ log) (w₀.stamp w') holders)

theorem kept_logged (range : p.maxAttempts ≤ Delivery.maxFailures)
    (once : w'.jitter.taken ≤ w₀.jitter.taken + 1) :
    Kept regime (World.LoggedSince p log w₀ w') where
  still := fun {w w₁ holders} still ⟨paces, news, grown, logged⟩ => by
    have aside := still.aside
    refine ⟨paces.trans aside.paces, news, aside.journal.trans grown, fun bound => ?_⟩
    exact (logged (Nat.le_trans aside.paces.taken bound)).of_same aside.paces.policy aside.journal
      still.account
  happens := fun {w w₁ holders rule id x} attended happens ⟨paces, news, grown, logged⟩ => by
    obtain ⟨latest, grown'⟩ := (attended.advances happens).journal
    refine ⟨paces.trans happens.paces, latest ++ news, ?_, fun bound => ?_⟩
    · rw [grown', grown, List.append_assoc]
    · have before := logged (Nat.le_trans happens.paces.taken bound)
      have draw : ∀ drawn ∈ w.jitter.drawn w₁.jitter, (w₀.stamp w').draw = some drawn :=
        fun _ drawn => Supply.drawn_once once paces.supply paces.taken bound drawn
      rw [List.map_append, List.append_assoc]
      exact before.happens attended happens paces.clock.symm draw range grown'

/-! ### Every interleaving -/

theorem Scene.Sound.steady_holders {I : World → (RuleId → Option Work) → Prop}
    (h : s.Sound regime I st holders) (rule : RuleId) : ∀ work ∈ holders rule, work.Steady := by
  intro work here
  obtain ⟨q, id, ticket, there⟩ := h.orderly.held.mp here
  have calm := h.steady q
  rw [there] at calm
  exact calm

abbrev World.LoggedAlways (p : RetryPolicy) (log : List Stamped) (w : World)
    (holders : RuleId → Option Work) : Prop :=
  ∀ now, w.Logged p log now holders

theorem Scene.Sound.logged_step (range : p.maxAttempts ≤ Delivery.maxFailures)
    (h : s.Sound .mixed (World.LoggedAlways p log) st holders)
    (step : Scene.Step (Call.Admitted .mixed) World.Elsewhere s s') :
    ∃ st' holders', s'.Sound .mixed (World.LoggedAlways p (s.world.news s'.world ++ log)) st'
      holders' := by
  have logged := h.property
  cases step with
  | call c ok =>
      rw [World.news_of_same rfl]
      exact ⟨st, holders, h.call ok nofun⟩
  | @outside w' change =>
      obtain ⟨engine, -, journal, -⟩ := change.engine
      rw [World.news_of_same journal]
      refine ⟨st, holders, h.outside change fun now => ?_⟩
      exact (logged now).of_same (congrArg Engine.policy engine) journal change.account
  | @move i c w' c' member move =>
      have since : s.Sound .mixed (World.LoggedSince p log s.world w') st holders :=
        h.imp ⟨.refl _, [], rfl, fun _ => logged _⟩
      have once : w'.jitter.taken ≤ s.world.jitter.taken + 1 := h.draws member move
      obtain ⟨st', holders', sound⟩ := since.move (kept_logged range once) member move
      obtain ⟨-, news, grown, logged'⟩ := sound.property
      rw [World.news_eq grown]
      exact ⟨st', holders', sound.imp fun now =>
        (logged' (Nat.le_refl _)).of_steady sound.steady_holders now⟩

theorem World.Begins.logged (h : w.Begins) : w.LoggedAlways w.engine.policy [] fun _ => none := by
  refine fun now => ⟨rfl, h.journal.symm, fun rule => ⟨{}, .nil, rfl, ?_⟩⟩
  rw [h.account]
  exact .nil

theorem Scene.Timeline.logged {s : Scene} (begins : w.Begins)
    (range : w.engine.policy.maxAttempts ≤ Delivery.maxFailures)
    (timeline : Scene.Timeline (Call.Admitted .mixed) World.Elsewhere { world := w } log s) :
    ∃ st holders, s.Sound .mixed (World.LoggedAlways w.engine.policy log) st holders := by
  induction timeline with
  | start => exact ⟨_, _, Scene.sound_begins begins begins.logged⟩
  | step _ step ih =>
      obtain ⟨st, holders, sound⟩ := ih
      exact sound.logged_step range step

/-- On a new engine, and however calls, answers and changes from outside are interleaved: what happens to the
events of a rule can be posted to a ledger, in which only the oldest event is sent, not more often than the
policy allows, not before the delay that was drawn when it failed last has passed, and never again once it
was accepted. The attempts in the log of dead letters are those that the ledger counted. No policy asks for
more attempts than failures are counted. -/
theorem Scene.delivered_in_order {w : World} {log : List Stamped} {s : Scene} (begins : w.Begins)
    (range : w.engine.policy.maxAttempts ≤ Delivery.maxFailures)
    (timeline : Scene.Timeline (Call.Admitted .mixed) World.Elsewhere { world := w } log s) :
    log.map (·.what) = s.world.journal ∧
      (∀ rule, ∃ ledger,
        Ledger.Posted w.engine.policy (log.filter (·.what.ruleId = rule)) ledger) ∧
      s.world.engine.deadLetters.events =
        s.world.abandonments.drop (s.world.abandonments.length - DeadLetters.capacity) := by
  obtain ⟨st, holders, sound⟩ := timeline.logged begins range
  obtain ⟨-, journal, ledgers⟩ := sound.property ⟨0, none⟩
  obtain ⟨st', holders', sound'⟩ := (Scene.sound_begins begins begins.accounted).run
    (kept_accounted .mixed) bears_accounted timeline.run (by simp)
  have settled (rule : RuleId) : Work.debt (holders' rule) = 0 := by
    cases held : holders' rule with
    | none => rfl
    | some work => exact (sound'.steady_holders rule work held).debt
  have booked := sound'.property.booked "" fun rule _ => settled rule
  refine ⟨journal, fun rule => ?_, booked.letters⟩
  obtain ⟨ledger, posted, -⟩ := ledgers rule
  exact ⟨ledger, posted⟩

def Happening.sent? : Happening → Option Event
  | .sent event => some event
  | _ => none

/-- The store goes away, and the end of the alert is sent three times before it is given up. -/
theorem Scene.delivered_in_order_until_given_up :
    let s := Scene.cutOff.retryLater.retryLater
    ∃ log, Scene.Timeline (Call.Admitted .mixed) World.Elsewhere { world := .impatient } log s ∧
      (∀ rule, ∃ ledger,
        Ledger.Posted World.impatient.engine.policy (log.filter (·.what.ruleId = rule)) ledger) ∧
      ((log.filterMap (·.what.sent?)).map (·.isOpened) = [false, false, false, true]) ∧
      s.world.engine.deadLetters.events.map (·.2) = [3] := by
  intro s
  have run : Scene.Run (Call.Admitted .mixed) World.Elsewhere { world := .impatient } s :=
    ((Scene.run_tried 2).mono fun outage => outage.apart.1).admits Call.Admitted.mixed
  obtain ⟨log, timeline⟩ := run.timeline
  obtain ⟨journal, ledgers, -⟩ := Scene.delivered_in_order (World.begins_watched _ _) (by decide) timeline
  refine ⟨log, timeline, ledgers, ?_, by decide +kernel⟩
  have sends : log.filterMap (·.what.sent?) = s.world.journal.filterMap Happening.sent? := by
    rw [← journal, List.filterMap_map]
    rfl
  rw [sends]
  decide +kernel

end ThresholdAlerts
