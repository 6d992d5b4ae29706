import ThresholdAlerts.Proofs.Solitude
/-! How fresh the rules are. An invalidation asks for a fetch; the next fetch answers it, whether it succeeds or
not, and only an announced edit asks again when its fetch failed. Main statement: after any calls, one at a
time, a fetch is asked for exactly if none has begun since the last invalidation, but for one that failed to
serve an announced edit. -/
namespace ThresholdAlerts

open Prog

/-- The source of the rules was not asked, and the rules stay as they are. -/
structure World.Unasked (w w' : World) : Prop where
  rules : w'.engine.rules = w.engine.rules
  fetches : w'.source.fetches = w.source.fetches

/-- From outside anything may change, but nobody else asks the source. -/
def World.BesideFetches (w w' : World) : Prop :=
  w.Elsewhere w' ∧ w'.source.fetches = w.source.fetches

section Unasked

variable {T : Type} {team : Team T} {w w' w₁ w₂ w₃ : World}

theorem World.Unasked.refl (w : World) : w.Unasked w := ⟨rfl, rfl⟩

theorem World.Unasked.trans (h : w₁.Unasked w₂) (h' : w₂.Unasked w₃) : w₁.Unasked w₃ :=
  ⟨h'.rules.trans h.rules, h'.fetches.trans h.fetches⟩

theorem World.Unasked.onTracker (h : w.Unasked w') (f : Tracker → Tracker) : w.Unasked (w'.onTracker f) :=
  ⟨h.rules, h.fetches⟩

theorem World.besideFetches_editSource (w : World) (failure : Option SourceError) :
    w.BesideFetches (w.editSource (.setFailure failure)) :=
  ⟨⟨_, w.sink, w.clock, w.calendar, w.jitter, w.lulls, w.woken, Nat.le_refl _, rfl⟩, rfl⟩

theorem World.BesideFetches.unasked (h : w.BesideFetches w') : w.Unasked w' :=
  ⟨congrArg Engine.rules h.1.engine.1, h.2⟩

/-! ### Requests for other things than rules -/

def Request.IsPlain : Request → Prop
  | .refreshTurn | .fetch => False
  | _ => True

theorem Request.unasked_startLookups (w : World) (rules : List RuleId) : w.Unasked (startLookups w rules).1 := by
  induction rules generalizing w with
  | nil => exact .refl w
  | cons rule rest ih =>
    have first : w.Unasked { w with sink := w.sink.startFindOpen.1 } := ⟨rfl, rfl⟩
    exact first.trans (ih _)

theorem Request.unasked_start {r : Request} (plain : r.IsPlain) (ticket : Ticket) (w : World) :
    w.Unasked (r.start ticket w).1 := by
  cases r with
  | refreshTurn => exact plain.elim
  | fetch => exact plain.elim
  | knownSlot id =>
    rw [start]
    split <;> exact ⟨rfl, rfl⟩
  | findOpen rules => exact unasked_startLookups w rules
  | _ => exact ⟨rfl, rfl⟩

theorem Request.unasked_poll (r : Request) (wait : r.Wait) (w : World) : w.Unasked (r.poll wait w).1 := by
  obtain ⟨_, _, _, _, _, same⟩ := r.world_poll wait w
  exact same ▸ ⟨rfl, rfl⟩

/-! ### Programs that leave the rules alone -/

def Pact.unasked : Pact where
  others := World.Unasked
  self := World.Unasked
  still := .refl
  goesOn := .trans

def Team.unasked : Team T :=
  fun _ w post => ∀ results w', w.Unasked w' → post results w'

instance : (Team.unasked : Team T).Monotone where
  imp := fun all weaker results w' unasked => weaker results w' (all results w' unasked)

theorem Request.handled_plain {r : Request} (plain : r.IsPlain) {post : r.Answer → World → Prop}
    (goes : ∀ a w', w.Unasked w' → post a w') : r.Handled Pact.unasked w post := by
  have taken : w.Unasked w.takeTicket.1 := ⟨rfl, rfl⟩
  have started := taken.trans (unasked_start plain w.takeTicket.2 w.takeTicket.1)
  refine ⟨started, fun w' _ => w.Unasked w', started, fun here others => here.trans others,
    fun {w' w'' wait wait'} here polled => ?_, fun {w' w'' wait a} here polled => ?_⟩
  all_goals
    have unasked := unasked_poll r wait w'
    rw [polled] at unasked
  · exact ⟨unasked, here.trans unasked⟩
  · exact ⟨unasked, goes _ _ (here.trans unasked)⟩

/-- Wherever the program begins it leaves the rules alone. -/
def Prog.Frugal (team : Team T) (p : Prog T α) : Prop :=
  ∀ w, p.Ensures Pact.unasked team w fun _ w' => w.Unasked w'

namespace Prog.Frugal

variable {p : Prog T α}

theorem done (a : α) : (pure a : Prog T α).Frugal team := fun w => .refl w

theorem bind [team.Monotone] {f : α → Prog T β} (h : p.Frugal team) (next : ∀ a, (f a).Frugal team) :
    (p >>= f).Frugal team := fun w =>
  (h w).bind fun a w' unasked => (next a w').weaken fun _ _ later => unasked.trans later

theorem read (f : World → α) : (Prog.read f : Prog T α).Frugal team := fun w => .refl w

theorem modify {f : World → World} (unasked : ∀ w : World, w.Unasked (f w)) :
    (Prog.modify f : Prog T Unit).Frugal team :=
  fun w => ⟨unasked w, unasked w⟩

theorem step {f : World → World × α} (unasked : ∀ w : World, w.Unasked (f w).1) :
    (Prog.step f : Prog T α).Frugal team :=
  fun w => ⟨unasked w, unasked w⟩

theorem request {r : Request} (plain : r.IsPlain) : (Prog.request r : Prog T r.Answer).Frugal team :=
  fun _ => Request.handled_plain plain fun _ _ unasked => unasked

theorem all (tasks : List T) : (Prog.all tasks).Frugal Team.unasked :=
  fun _ _ _ unasked => unasked

end Prog.Frugal

/-! ### The steps of the engine -/

namespace World

theorem unasked_change (w : World) (slot : SlotId) (c : FiringState.Change) : w.Unasked (w.change slot c).1 := by
  rw [change]
  generalize w.engine.tracker.change slot c = changed
  obtain ⟨tracker, event⟩ := changed
  cases event <;> exact ⟨rfl, rfl⟩

theorem unasked_transition (w : World) (slot : SlotId) (rule : Rule) (breached : Bool) (value : Float)
    (time : Timestamp) : w.Unasked (w.transition slot rule breached value time).1 := by
  have changed := w.unasked_change slot (.transition w.ids.next rule breached value time)
  rw [transition]
  generalize w.change slot _ = result at changed ⊢
  obtain ⟨w', event⟩ := result
  dsimp only
  split <;> exact changed.trans ⟨rfl, rfl⟩

theorem unasked_judge (w : World) (slot : SlotId) (rule : Rule) (value : Float) (time : Timestamp) :
    w.Unasked (w.judge slot rule value time).1 := by
  rw [judge]
  split
  · exact ⟨rfl, rfl⟩
  · have counted : w.Unasked (w.count .evaluation) := ⟨rfl, rfl⟩
    exact (counted.trans (unasked_change ..)).trans (unasked_transition ..)

theorem unasked_dismiss (w : World) (slot : SlotId) : w.Unasked (w.dismiss slot) := by
  rw [dismiss]
  split <;> exact ⟨rfl, rfl⟩

theorem unasked_reconcile (w : World) (slot : SlotId) (rule : RuleId) (announced : Bool) :
    w.Unasked (w.reconcile slot rule announced).1 := by
  have read : w.Unasked w.readCalendar.1 := ⟨rfl, rfl⟩
  rw [reconcile]
  dsimp only
  split
  · exact read.trans (unasked_change ..)
  · exact (read.trans (unasked_change ..)).trans ⟨rfl, rfl⟩

theorem unasked_abandon (w : World) (event : Event) (attempts : Nat) (error : SinkError) :
    w.Unasked (w.abandon event attempts error) := by
  constructor <;> simp only [abandon, readCalendar, count, note, onEngine]

theorem unasked_queueBehind (w : World) (slot : SlotId) (event : Event) : w.Unasked (w.queueBehind slot event) := by
  simp only [queueBehind]
  generalize (w.slot slot).outbox.enqueue event w.clock = put
  obtain ⟨outbox, result⟩ := put
  cases result with
  | overflow event =>
    have put : w.Unasked (w.onTracker (·.setOutbox slot outbox)) := ⟨rfl, rfl⟩
    exact (put.trans (unasked_abandon ..)).onTracker _
  | _ => exact ⟨rfl, rfl⟩

theorem unasked_firstFailure (w : World) (slot : SlotId) (event : Event) (error : SinkError) :
    w.Unasked (w.firstFailure slot event error) := by
  rw [firstFailure]
  split
  · exact ⟨rfl, rfl⟩
  · have counted : w.Unasked (w.count .sinkFailure) := ⟨rfl, rfl⟩
    exact counted.trans (unasked_abandon ..)

theorem unasked_delivered (w : World) (slot : SlotId) (front : Delivery) (rest : Outbox) :
    w.Unasked (w.delivered slot front rest) := by
  rw [delivered]
  split <;> exact ⟨rfl, rfl⟩

theorem unasked_failedAgain (w : World) (slot : SlotId) (front : Delivery) (rest : Outbox) (error : SinkError) :
    w.Unasked (w.failedAgain slot front rest error).1 := by
  simp only [failedAgain]
  split
  · exact ⟨rfl, rfl⟩
  · have failed : w.Unasked (((w.count .sinkFailure).failDelivery front error).1.onTracker (·.setOutbox slot rest)) :=
      ⟨rfl, rfl⟩
    exact failed.trans (unasked_abandon ..)

theorem unasked_claimGeneration (w : World) (generation : Nat) : w.Unasked (w.claimGeneration generation).1 := by
  rw [claimGeneration]
  split <;> exact ⟨rfl, rfl⟩

end World

/-! ### The work on one rule -/

section Work

variable [team.Monotone]

theorem frugal_dispatch (slot : SlotId) (event : Event) : (dispatch slot event : Prog T _).Frugal team := by
  refine .bind (.modify fun w => ⟨rfl, rfl⟩) fun _ => .bind (.read _) fun empty => ?_
  split
  · refine .bind (.request trivial) fun answer => ?_
    cases answer with
    | ok _ => exact .done _
    | error e => exact .modify fun w => w.unasked_firstFailure slot event e
  · exact .modify fun w => w.unasked_queueBehind slot event

theorem frugal_dispatchAll (slot : SlotId) (events : List Event) :
    (dispatchAll slot events : Prog T _).Frugal team := by
  induction events with
  | nil => exact .done _
  | cons event rest ih => exact .bind (frugal_dispatch slot event) fun _ => ih

theorem frugal_evaluate (rule : RuleId) (metric : String) (value : Float) (time : Timestamp) :
    (evaluate rule metric value time : Prog T _).Frugal team := by
  refine .bind (.request trivial) fun slot => .bind (.read _) fun current => ?_
  split
  · refine .bind (.step fun w => w.unasked_judge ..) fun events => .bind (frugal_dispatchAll slot events) fun _ => ?_
    exact .bind (.modify fun w => ⟨rfl, rfl⟩) fun _ => .done _
  · exact .bind (.modify fun w => w.unasked_dismiss slot) fun _ => .done _

theorem frugal_reconcileRule (rule : RuleId) (announced : Bool) :
    (reconcileRule rule announced : Prog T _).Frugal team := by
  refine .bind (.request trivial) fun found => ?_
  cases found with
  | some slot =>
    refine .bind (.step fun w => w.unasked_reconcile ..) fun event => .bind (frugal_dispatchAll slot _) fun _ => ?_
    exact .bind (.modify fun w => ⟨rfl, rfl⟩) fun _ => .done _
  | none => exact .done _

theorem frugal_drain (slot : SlotId) (now : Duration) (outbox : Outbox) (report : RetryReport) :
    (drain slot now outbox report : Prog T _).Frugal team := by
  induction outbox generalizing report with
  | nil => exact .done _
  | cons front rest ih =>
    rw [drain]
    split
    · refine .bind (.request trivial) fun answer => ?_
      cases answer with
      | ok _ => exact .bind (.modify fun w => w.unasked_delivered ..) fun _ => ih _
      | error e =>
        refine .bind (.step fun w => w.unasked_failedAgain ..) fun givenUp => ?_
        split
        · exact ih _
        · exact .done _
    · exact .done _

theorem frugal_retryRule (rule : RuleId) (report : RetryReport) :
    (retryRule rule report : Prog T _).Frugal team := by
  refine .bind (.request trivial) fun found => ?_
  cases found with
  | some slot =>
    refine .bind (.read _) fun now => .bind (.read _) fun outbox =>
      .bind (frugal_drain slot now outbox report) fun report => .bind (.read _) fun left => ?_
    split
    · exact .bind (.modify fun w => ⟨rfl, rfl⟩) fun _ => .done _
    · exact .bind (.modify fun w => ⟨rfl, rfl⟩) fun _ => .done _
  | none => exact .bind (.modify fun w => ⟨rfl, rfl⟩) fun _ => .done _

end Work

theorem Visit.frugal (v : Visit) : v.program.Frugal Team.nobody := by
  cases v with
  | evaluate rule metric value time => exact frugal_evaluate rule metric value time
  | reconcile rule announced => exact frugal_reconcileRule rule announced

/-! ### What a call does after it has the rules -/

theorem frugal_reconcileIfNewer (generation : Nat) : (reconcileIfNewer generation).Frugal Team.unasked := by
  refine .bind (.step fun w => w.unasked_claimGeneration generation) fun claimed => ?_
  split
  · exact .bind (.read _) fun rules => .all _
  · exact .done _

theorem frugal_evaluateAll (snapshot : RuleSnapshot) (metric : String) (value : Float) (time : Timestamp) :
    (evaluateAll snapshot metric value time).Frugal Team.unasked := by
  refine .bind (frugal_reconcileIfNewer _) fun reconciled => ?_
  split
  · exact .done _
  · exact .bind (.all _) fun evaluated => .done _

section Storage

variable [team.Monotone]

theorem frugal_seedRules (found : List (RuleId × Except SinkError (Option Alert))) (report : RecoveryReport) :
    (seedRules found report : Prog T _).Frugal team := by
  induction found generalizing report with
  | nil => exact .done _
  | cons first rest ih =>
    obtain ⟨rule, answer⟩ := first
    rcases answer with e | alert
    · exact .done _
    · cases alert with
      | none => exact ih report
      | some alert => exact .bind (.request trivial) fun slot => .bind (.step fun w => ⟨rfl, rfl⟩) fun isNew => ih _

theorem frugal_trackedAlert (rule : RuleId) : (trackedAlert rule : Prog T _).Frugal team := by
  refine .bind (.request trivial) fun found => ?_
  cases found with
  | some slot => exact .step fun w => ⟨rfl, rfl⟩
  | none => exact .done _

theorem frugal_resolveStray (alert : Alert) (orphaned : Bool) :
    (resolveStray alert orphaned : Prog T _).Frugal team := by
  refine .bind (.step fun w => ⟨rfl, rfl⟩) fun resolvedAt => .bind (.request trivial) fun slot =>
    .bind (frugal_dispatch slot _) fun _ => ?_
  split <;> exact .modify fun w => ⟨rfl, rfl⟩

theorem frugal_resolveStrays (snapshot : RuleSnapshot) (alerts : List Alert) (report : RecoveryReport) :
    (resolveStrays snapshot alerts report : Prog T _).Frugal team := by
  induction alerts generalizing report with
  | nil => exact .done _
  | cons alert rest ih =>
    refine .bind (frugal_trackedAlert alert.ruleId) fun tracked => ?_
    split
    · exact ih report
    · split <;> exact .bind (frugal_resolveStray alert _) fun _ => ih _

theorem frugal_retryRules (rules : List RuleId) (report : RetryReport) :
    (retryRules rules report : Prog T _).Frugal team := by
  induction rules generalizing report with
  | nil => exact .done _
  | cons rule rest ih => exact .bind (frugal_retryRule rule report) ih

theorem frugal_retry : (retry : Prog T _).Frugal team :=
  .bind (.read _) fun rules => frugal_retryRules rules {}

theorem frugal_summarize (slots : List SlotId) (summary : TrackerSummary) :
    (summarize slots summary : Prog T _).Frugal team := by
  induction slots generalizing summary with
  | nil => exact .done _
  | cons slot rest ih =>
    refine .bind (.request trivial) fun known => ?_
    split
    · exact .bind (.step fun w => ⟨rfl, rfl⟩) fun s => ih _
    · exact ih summary

theorem frugal_health : (health : Prog T _).Frugal team :=
  .bind (.read _) fun slots => .bind (frugal_summarize slots {}) fun _ => .step fun _ => ⟨rfl, rfl⟩

end Storage

/-! ### A call that is made alone -/

variable {outside : World → World → Prop}

theorem Team.polled_of_unasked (calm : ∀ {w w'}, outside w w' → w.Unasked w') {visits : List Visit}
    {post : List (List Event) → World → Prop} (h : Team.unasked visits w post) :
    Team.polled outside visits w post := by
  let J (w' : World) (strands : List Strand) : Prop :=
    (∀ c ∈ strands, c.Keeps Pact.unasked (fun _ _ => True) w') ∧ w.Unasked w'
  have party : Party outside J post := by
    refine ⟨fun ⟨each, so⟩ change => ⟨fun c mem => ?_, so.trans (calm change)⟩, fun {a b} ⟨each, so⟩ polled => ?_,
      fun ⟨each, so⟩ all => h _ _ so⟩
    · exact (each c mem).others (fun _ _ => trivial) (calm change)
    · obtain ⟨i, c, here, rfl⟩ := polled
      obtain ⟨self, keeps⟩ := (each c (List.mem_of_getElem? here)).moves (Visit.pollsMove a.1 c)
      refine ⟨fun d mem => ?_, so.trans self⟩
      rcases List.mem_or_eq_of_mem_set mem with there | rfl
      · exact (each d there).others (fun _ _ => trivial) self
      · exact keeps
  refine ⟨J, party, party.polls (a := (w, visits.map Visit.tasks.ready)) ⟨fun c mem => ?_, .refl w⟩
    (Members.polls_pollEach [] _ w)⟩
  obtain ⟨v, -, rfl⟩ := List.mem_map.mp mem
  exact ⟨fun _ => True, trivial, fun _ _ => trivial, fun _ => (v.frugal _).weaken fun _ _ _ => trivial⟩

theorem Prog.Frugal.alone {p : Prog Visit α} (h : p.Frugal Team.unasked)
    (calm : ∀ {w w'}, outside w w' → w.Unasked w') (w : World) :
    p.Ensures (Pact.alone outside) (Team.polled outside) w fun _ w' => w.Unasked w' :=
  (h w).imp calm (fun _ => trivial) (Team.polled_of_unasked calm) fun _ _ unasked => unasked

/-- The source was asked once. `loaded` tells whether it answered, and `again` whether it is to be asked again. -/
structure World.Asked (loaded again : Bool) (w w' : World) : Prop where
  fetches : w'.source.fetches = w.source.fetches + 1
  generation : w'.engine.rules.snapshot.generation = w.engine.rules.snapshot.generation + loaded.toNat
  turns : w'.engine.rules.turns = []
  invalidated : w'.engine.rules.invalidated = again

theorem World.Asked.unasked {loaded again : Bool} (h : w₁.Asked loaded again w₂) (rest : w₂.Unasked w₃) :
    w₁.Asked loaded again w₃ :=
  ⟨rest.fetches.trans h.fetches, (congrArg (·.snapshot.generation) rest.rules).trans h.generation,
    (congrArg RuleStore.turns rest.rules).trans h.turns,
    (congrArg RuleStore.invalidated rest.rules).trans h.invalidated⟩

theorem World.Unasked.asked {loaded again : Bool} (h : w₁.Unasked w₂) (rest : w₂.Asked loaded again w₃) :
    w₁.Asked loaded again w₃ :=
  ⟨h.fetches ▸ rest.fetches, h.rules ▸ rest.generation, rest.turns, rest.invalidated⟩

/-- Whoever waits for its turn while nobody else refreshes gets it. -/
theorem Request.handled_turn (calm : ∀ {w w'}, outside w w' → w.Unasked w') (turns : w.engine.rules.turns = []) :
    Request.refreshTurn.Handled (Pact.alone outside) w fun _ w' => w'.source.fetches = w.source.fetches ∧
      ∃ ticket, w'.engine.rules = { w.engine.rules with turns := [ticket] } := by
  let I (w' : World) (ticket : Ticket) : Prop := w'.source.fetches = w.source.fetches ∧
    w'.engine.rules = { w.engine.rules with turns := [ticket] }
  have begun : I (Request.refreshTurn.start w.takeTicket.2 w.takeTicket.1).1 w.takeTicket.2 := by
    refine ⟨rfl, ?_⟩
    change { w.engine.rules with turns := w.engine.rules.turns ++ [w.takeTicket.2] } = _
    rw [turns, List.nil_append]
  refine ⟨trivial, I, begun, fun here change => ⟨(calm change).fetches.trans here.1, (calm change).rules.trans here.2⟩,
    fun {w' w'' ticket ticket'} here polled => ?_, fun {w' w'' ticket a} here polled => ?_⟩
  all_goals
    have first : w'.engine.rules.turns.head? = some ticket := by rw [here.2]; rfl
    rw [Request.poll, if_pos first] at polled
  · exact absurd (Prod.mk.inj polled).2 (by simp)
  · obtain ⟨rfl, -⟩ := Prod.mk.inj polled
    exact ⟨trivial, here.1, ticket, here.2⟩

theorem Request.handled_ask (calm : ∀ {w w'}, outside w w' → w.Unasked w') :
    Request.fetch.Handled (Pact.alone outside) w fun _ w' =>
      w'.source.fetches = w.source.fetches + 1 ∧ w'.engine.rules = w.engine.rules := by
  let I (w' : World) : Prop := w'.source.fetches = w.source.fetches + 1 ∧ w'.engine.rules = w.engine.rules
  refine ⟨trivial, fun w' _ => I w', ⟨rfl, rfl⟩,
    fun here change => ⟨(calm change).fetches.trans here.1, (calm change).rules.trans here.2⟩,
    fun {w' w'' f f'} here polled => ⟨trivial, ?_⟩, fun {w' w'' f a} here polled => ⟨trivial, ?_⟩⟩
  all_goals
    have same : w'' = w' ∨ w'' = w'.moved := by
      rw [Request.poll] at polled
      repeat' split at polled
      all_goals
        obtain ⟨rfl, -⟩ := Prod.mk.inj polled
        first
        | exact .inl rfl
        | exact .inr rfl
    rcases same with rfl | rfl <;> exact here

theorem asks_fetchRules {w₀ : World} {ticket : Ticket} (calm : ∀ {w w'}, outside w w' → w.Unasked w')
    (fetches : w.source.fetches = w₀.source.fetches)
    (rules : w.engine.rules = { w₀.engine.rules with turns := [ticket] }) :
    (fetchRules : Prog T _).Ensures (Pact.alone outside) team w fun result w' =>
      w₀.Asked result.toBool false w'.endTurn := by
  refine ensures_modify trivial (ensures_request ((Request.handled_ask calm).imp fun answer w₁ ⟨once, same⟩ => ?_))
  have once : w₁.source.fetches = w₀.source.fetches + 1 := once.trans (congrArg (· + 1) fetches)
  have same : w₁.engine.rules = { w₀.engine.rules with turns := [ticket], invalidated := false } :=
    same.trans (congrArg RuleStore.beginFetch rules)
  have generation := congrArg (·.snapshot.generation) same
  have turns := congrArg (·.turns.tail) same
  have invalidated := congrArg (·.invalidated) same
  cases answer with
  | ok rules =>
    refine ensures_step trivial (ensures_pure ⟨once, ?_, turns, invalidated⟩)
    exact (RuleSnapshot.generation_foldl ..).trans (congrArg (· + 1) generation)
  | error e => exact ensures_modify trivial (ensures_pure ⟨once, generation, turns, invalidated⟩)

theorem asks_refreshRules (calm : ∀ {w w'}, outside w w' → w.Unasked w') [team.Monotone]
    (turns : w.engine.rules.turns = []) :
    (refreshRules : Prog T _).Ensures (Pact.alone outside) team w fun result w' => w.Asked result.toBool false w' := by
  refine ensures_request ((Request.handled_turn calm turns).imp fun _ w₁ ⟨fetches, ticket, rules⟩ => ?_)
  refine (asks_fetchRules calm fetches rules).bind fun result w₂ asked => ?_
  exact ensures_modify trivial (ensures_pure asked)

/-- The rules were looked at; the source was asked if that had been asked for. -/
inductive World.Consults (w w' : World) : Prop
  | fresh (valid : w.engine.rules.invalidated = false) (unasked : w.Unasked w')
  | asked (stale : w.engine.rules.invalidated = true) {loaded : Bool} (asked : w.Asked loaded false w')

theorem World.Consults.unasked (h : w₁.Consults w₂) (rest : w₂.Unasked w₃) : w₁.Consults w₃ := by
  cases h with
  | fresh valid unasked => exact .fresh valid (unasked.trans rest)
  | asked stale asked => exact .asked stale (asked.unasked rest)

theorem World.Unasked.consults (h : w₁.Unasked w₂) (rest : w₂.Consults w₃) : w₁.Consults w₃ := by
  cases rest with
  | fresh valid unasked => exact .fresh (h.rules ▸ valid) (h.trans unasked)
  | asked stale asked => exact .asked (h.rules ▸ stale) (h.asked asked)

theorem consults_currentRules (calm : ∀ {w w'}, outside w w' → w.Unasked w') [team.Monotone]
    (turns : w.engine.rules.turns = []) :
    (currentRules : Prog T _).Ensures (Pact.alone outside) team w fun _ w' => w.Consults w' := by
  refine ensures_read ?_
  cases invalidated : w.engine.rules.invalidated with
  | false => exact ensures_read (ensures_pure (.fresh invalidated (.refl w)))
  | true =>
    refine ensures_request ((Request.handled_turn calm turns).imp fun _ w₁ ⟨fetches, ticket, rules⟩ => ensures_read ?_)
    have still : w₁.engine.rules.invalidated = true := (congrArg RuleStore.invalidated rules).trans invalidated
    rw [still]
    refine (asks_fetchRules calm fetches rules).bind fun result w₂ asked => ?_
    exact ensures_modify trivial (ensures_read (ensures_pure (.asked invalidated asked)))

end Unasked

/-! ### Dealings with the store of rules -/

/-- What the store of rules is used for, by itself or through a call of the engine. -/
inductive Use where
  | invalidate
  | read
  | refresh
  | call (c : Call)

namespace Use

abbrev Answer : Use → Type
  | .invalidate => Unit
  | .read => RuleSnapshot
  | .refresh => Except SourceError RuleSnapshot
  | .call _ => Reply

def program : (u : Use) → Prog Visit u.Answer
  | .invalidate => modify (·.onRules (·.invalidate))
  | .read => currentRules
  | .refresh => refreshRules
  | .call c => c.program

/-- Uses that invalidate the rules before they do anything else. -/
def Invalidates : Use → Prop
  | .invalidate | .call (.announceEdit _) => True
  | _ => False

end Use

inductive Fetch where
  | none
  | loaded
  | failed
deriving DecidableEq

/-- Each fetch is counted by the source, and the generation of the rules by the fetches that succeed. -/
def World.fetch (w w' : World) : Fetch :=
  if w'.source.fetches = w.source.fetches then .none
  else if w'.engine.rules.snapshot.generation = w.engine.rules.snapshot.generation then .failed
  else .loaded

inductive Use.Comes (w : World) : Use → World → Prop
  | invalidated : Comes w .invalidate (w.onRules (·.invalidate))
  | consulted {u w'} (plain : ¬ u.Invalidates) (consults : w.Consults w') : Comes w u w'
  | refreshed {u w' loaded} (plain : ¬ u.Invalidates) (reads : u ≠ .read) (asked : w.Asked loaded false w') :
      Comes w u w'
  | spared {u w'} (plain : ¬ u.Invalidates) (reads : u ≠ .read) (unasked : w.Unasked w') : Comes w u w'
  | announced {rule w' loaded} (asked : w.Asked loaded (!loaded) w') : Comes w (.call (.announceEdit rule)) w'

section Uses

variable {outside : World → World → Prop} {w w' : World}

theorem World.Unasked.fetch (h : w.Unasked w') : w.fetch w' = .none :=
  if_pos h.fetches

theorem World.Asked.fetch {loaded again : Bool} (h : w.Asked loaded again w') :
    w.fetch w' = if loaded then .loaded else .failed := by
  have once : w'.source.fetches ≠ w.source.fetches := h.fetches ▸ Nat.succ_ne_self _
  rw [World.fetch, if_neg once, h.generation]
  cases loaded <;> simp

theorem World.Consults.turns (h : w.Consults w') (turns : w.engine.rules.turns = []) :
    w'.engine.rules.turns = [] := by
  cases h with
  | fresh valid unasked => exact unasked.rules ▸ turns
  | asked stale asked => exact asked.turns

theorem comes_call (calm : ∀ {w w'}, outside w w' → w.Unasked w') (turns : w.engine.rules.turns = []) (c : Call) :
    c.program.Ensures (Pact.alone outside) (Team.polled outside) w fun _ w' => Use.Comes w (.call c) w' := by
  cases c with
  | sample metric value time =>
    have counts {w₁ : World} (unasked : w.Unasked w₁) :
        (do evaluateAll (← currentRules) metric value time).Ensures (Pact.alone outside) (Team.polled outside) w₁
          fun _ w' => w.Consults w' := by
      refine (consults_currentRules calm (unasked.rules ▸ turns)).bind fun snapshot w₂ consults => ?_
      refine ((frugal_evaluateAll snapshot metric value time).alone calm w₂).weaken fun _ w' rest => ?_
      exact unasked.consults (consults.unasked rest)
    have taken : (takeSample metric value time).Ensures (Pact.alone outside) (Team.polled outside) w
        fun _ w' => w.Consults w' := by
      refine ensures_modify trivial ?_
      split
      · exact ensures_modify trivial (counts ⟨rfl, rfl⟩)
      · exact counts ⟨rfl, rfl⟩
    exact taken.bind fun _ w' consults => ensures_pure (.consulted id consults)
  | announceEdit rule =>
    have marked : (w.onRules (·.invalidate)).engine.rules.turns = [] := turns
    refine ensures_then (ensures_modify trivial ((asks_refreshRules calm marked).bind fun result w₁ asked => ?_))
    cases result with
    | error e =>
      refine ensures_modify trivial (((frugal_reconcileRule rule true).alone calm _).bind fun _ w' rest => ?_)
      have again : w.Asked false true (w₁.onRules (·.invalidate)) := ⟨asked.fetches, asked.generation, asked.turns, rfl⟩
      exact ensures_pure (.announced (again.unasked rest))
    | ok snapshot =>
      have loaded : w.Asked true false w₁ := ⟨asked.fetches, asked.generation, asked.turns, asked.invalidated⟩
      refine ((frugal_reconcileIfNewer _).alone calm w₁).bind fun _ w₂ taken => ?_
      refine ((frugal_reconcileRule rule true).alone calm w₂).bind fun _ w' rest => ?_
      exact ensures_pure (.announced (loaded.unasked (taken.trans rest)))
  | refresh =>
    refine ensures_then ((asks_refreshRules calm turns).bind fun result w₁ asked => ?_)
    cases result with
    | error e => exact ensures_pure (.refreshed id (by simp) asked)
    | ok snapshot =>
      refine ((frugal_reconcileIfNewer _).alone calm w₁).bind fun _ w' rest => ?_
      exact ensures_pure (.refreshed id (by simp) (asked.unasked rest))
  | recover =>
    refine ensures_then ((asks_refreshRules calm turns).bind fun result w₁ asked => ?_)
    cases result with
    | error e => exact ensures_pure (.refreshed id (by simp) asked)
    | ok snapshot =>
      refine ((Frugal.step fun w => w.unasked_claimGeneration _).alone calm w₁).bind fun _ w₂ rest₂ => ?_
      have sofar := asked.unasked rest₂
      refine ((Frugal.request (r := .findOpen _) trivial).alone calm w₂).bind fun found w₃ rest₃ => ?_
      refine ((frugal_seedRules _ _).alone calm w₃).bind fun seeded w₄ rest₄ => ?_
      have sofar := sofar.unasked (rest₃.trans rest₄)
      cases seeded with
      | error e => exact ensures_pure (.refreshed id (by simp) sofar)
      | ok report =>
        refine ((Frugal.request (r := .findAll) trivial).alone calm w₄).bind fun listed w₅ rest₅ => ?_
        have sofar := sofar.unasked rest₅
        cases listed with
        | error e => exact ensures_pure (.refreshed id (by simp) sofar)
        | ok alerts =>
          refine ((frugal_resolveStrays snapshot alerts report).alone calm w₅).bind fun _ w' rest => ?_
          exact ensures_pure (.refreshed id (by simp) (sofar.unasked rest))
  | retry =>
    exact (frugal_retry.alone calm w).bind fun _ w' rest => ensures_pure (.spared id (by simp) rest)
  | health =>
    exact (frugal_health.alone calm w).bind fun _ w' rest => ensures_pure (.spared id (by simp) rest)

theorem Use.comes (calm : ∀ {w w'}, outside w w' → w.Unasked w') (turns : w.engine.rules.turns = []) (u : Use) :
    u.program.Ensures (Pact.alone outside) (Team.polled outside) w fun _ w' => u.Comes w w' := by
  cases u with
  | invalidate => exact ⟨trivial, .invalidated⟩
  | read => exact (consults_currentRules calm turns).weaken fun _ _ consults => .consulted id consults
  | refresh => exact (asks_refreshRules calm turns).weaken fun _ _ asked => .refreshed id (by simp) asked
  | call c => exact comes_call calm turns c

/-- After a use a fetch is asked for if the use invalidates the rules and loads none, or if that was so before
and nothing was fetched. -/
theorem Use.Comes.marks {u : Use} (comes : u.Comes w w') :
    w'.engine.rules.invalidated = true ↔
      u.Invalidates ∧ w.fetch w' ≠ .loaded ∨ w.fetch w' = .none ∧ w.engine.rules.invalidated = true := by
  cases comes with
  | invalidated =>
    have unfetched : w.fetch (w.onRules (·.invalidate)) = .none := if_pos rfl
    rw [unfetched]
    exact iff_of_true rfl (.inl ⟨trivial, by simp⟩)
  | consulted plain consults =>
    cases consults with
    | fresh valid unasked => simp [plain, unasked.fetch, unasked.rules, valid]
    | @asked stale loaded asked => cases loaded <;> simp [plain, asked.fetch, asked.invalidated]
  | @refreshed _ _ loaded plain reads asked => cases loaded <;> simp [plain, asked.fetch, asked.invalidated]
  | spared plain reads unasked => simp [plain, unasked.fetch, unasked.rules]
  | @announced rule _ loaded asked => cases loaded <;> simp [Invalidates, asked.fetch, asked.invalidated]

theorem Use.Comes.turns {u : Use} (comes : u.Comes w w') (turns : w.engine.rules.turns = []) :
    w'.engine.rules.turns = [] := by
  cases comes with
  | invalidated => exact turns
  | consulted plain consults => exact consults.turns turns
  | refreshed plain reads asked => exact asked.turns
  | spared plain reads unasked => exact unasked.rules ▸ turns
  | announced asked => exact asked.turns

theorem Use.Comes.fetch_read (comes : Use.read.Comes w w') :
    w.fetch w' ≠ .none ↔ w.engine.rules.invalidated = true := by
  cases comes with
  | consulted plain consults =>
    cases consults with
    | fresh valid unasked => simp [unasked.fetch, valid]
    | @asked stale loaded asked => cases loaded <;> simp [asked.fetch, stale]
  | refreshed plain reads asked => exact absurd rfl reads
  | spared plain reads unasked => exact absurd rfl reads

end Uses

/-- A use that is over, and the worlds in which it began and ended. -/
structure Deal where
  use : Use
  before : World
  after : World

namespace Deal

/-- The use is made with no other under way. -/
def Runs (outside : World → World → Prop) (d : Deal) : Prop :=
  let started := CallThread.start d.use.program d.before
  ∃ answer, started.2.Completes outside started.1 d.after answer

/-- A use that is over as soon as it is made. -/
def made (use : Use) (before : World) : Deal :=
  { use, before, after := (CallThread.start use.program before).1 }

theorem runs_made {outside : World → World → Prop} {use : Use} {before : World}
    (finished : (Thread.result? (CallThread.start use.program before).2).isSome) : (made use before).Runs outside := by
  obtain ⟨answer, ends⟩ := Option.isSome_iff_exists.mp finished
  refine ⟨answer, ?_⟩
  dsimp only [made]
  rw [CallThread.eq_finished ends]
  exact .finished

def fetch (d : Deal) : Fetch :=
  d.before.fetch d.after

/-- No fetch has succeeded since the store was made, or was last invalidated. The newest comes first. -/
def Unserved : List Deal → Prop
  | [] => True
  | d :: older => d.fetch ≠ .loaded ∧ (d.use.Invalidates ∨ Unserved older)

/-- No fetch has failed since then, but for one that served an edit which asks for another. -/
def Intact : List Deal → Prop
  | [] => True
  | d :: older => d.use.Invalidates ∨ d.fetch ≠ .failed ∧ Intact older

end Deal

/-- Uses of the store one after the other, the newest first. In between the world may change from outside. -/
inductive Dealings (outside : World → World → Prop) (w₀ : World) : List Deal → World → Prop
  | begun : Dealings outside w₀ [] w₀
  | gap {ds w w'} (dealt : Dealings outside w₀ ds w) (change : outside w w') : Dealings outside w₀ ds w'
  | deal {ds d} (dealt : Dealings outside w₀ ds d.before) (ran : d.Runs outside) :
      Dealings outside w₀ (d :: ds) d.after

namespace Dealings

variable {outside : World → World → Prop} {w₀ w : World} {ds : List Deal} {age : Duration}

theorem marked (calm : ∀ {w w'}, outside w w' → w.Unasked w') (new : w₀.engine.rules = { maxStaleness := age })
    (dealt : Dealings outside w₀ ds w) : w.engine.rules.turns = [] ∧
      (w.engine.rules.invalidated = true ↔ Deal.Unserved ds ∧ Deal.Intact ds) := by
  induction dealt with
  | begun => simp [new, Deal.Unserved, Deal.Intact]
  | gap dealt change ih => exact (calm change).rules ▸ ih
  | @deal ds d dealt ran ih =>
    obtain ⟨turns, before⟩ := ih
    obtain ⟨answer, completes⟩ := ran
    have comes := completes.ends (d.use.comes calm turns).advance
    refine ⟨comes.turns turns, comes.marks.trans ?_⟩
    rw [before, Deal.Unserved, Deal.Intact, Deal.fetch]
    cases d.before.fetch d.after <;> tauto

/-- After any uses of a new store a fetch is asked for exactly if none has succeeded since it was made or last
invalidated, and none has failed but for an announced edit; and then, and only then, the next read fetches. -/
theorem invalidated_iff (new : w₀.engine.rules = { maxStaleness := age })
    (dealt : Dealings World.BesideFetches w₀ ds w) :
    (w.engine.rules.invalidated = true ↔ Deal.Unserved ds ∧ Deal.Intact ds) ∧
      ∀ d : Deal, d.use = .read → d.before = w → d.Runs World.BesideFetches →
        (d.fetch ≠ .none ↔ Deal.Unserved ds ∧ Deal.Intact ds) := by
  obtain ⟨turns, marked⟩ := dealt.marked World.BesideFetches.unasked new
  refine ⟨marked, ?_⟩
  rintro ⟨use, before, after⟩ rfl rfl ⟨snapshot, completes⟩
  have comes := completes.ends (Use.read.comes World.BesideFetches.unasked turns).advance
  exact comes.fetch_read.trans marked

/-- The first rules are loaded. -/
def loaded : Deal :=
  .made .refresh (.watched { workers := 1 } {})

/-- The source of the rules goes away. -/
def outage : World :=
  loaded.after.editSource (.setFailure (some (.unavailable "away")))

/-- While it is away an edit of the rule is announced. -/
def edited : Deal :=
  .made (.call (.announceEdit "high-load")) outage

theorem dealt_outage :
    Dealings World.BesideFetches (.watched { workers := 1 } {}) [loaded] outage :=
  .gap (.deal .begun (Deal.runs_made (by decide +kernel))) (World.besideFetches_editSource _ _)

/-- The edit stays pending through an outage, and the next read fetches the rules. -/
theorem asked_again_after_outage :
    let back := edited.after.editSource (.setFailure none)
    back.engine.rules.invalidated = true ∧ (Deal.made .read back).fetch ≠ .none := by
  intro back
  have dealt : Dealings World.BesideFetches (.watched { workers := 1 } {}) [edited, loaded] back :=
    .gap (.deal dealt_outage (Deal.runs_made (by decide +kernel))) (World.besideFetches_editSource _ _)
  obtain ⟨marked, reads⟩ := invalidated_iff rfl dealt
  have pending : Deal.Unserved [edited, loaded] ∧ Deal.Intact [edited, loaded] :=
    ⟨⟨by decide +kernel, .inl trivial⟩, .inl trivial⟩
  exact ⟨marked.mpr pending, (reads _ rfl rfl (Deal.runs_made (by decide +kernel))).mpr pending⟩

/-- A sample that comes in the outage takes the mark away, and nothing brings it back. -/
theorem edit_lost_by_sample :
    ¬ ∀ (w₀ w : World) (ds : List Deal) (age : Duration), w₀.engine.rules = { maxStaleness := age } →
      Dealings World.BesideFetches w₀ ds w → Deal.Unserved ds → w.engine.rules.invalidated = true := by
  intro known
  let sampled := Deal.made (.call (.sample "load" 95 default)) edited.after
  have dealt : Dealings World.BesideFetches (.watched { workers := 1 } {}) [sampled, edited, loaded]
      sampled.after :=
    .deal (.deal dealt_outage (Deal.runs_made (by decide +kernel))) (Deal.runs_made (by decide +kernel))
  have unserved : Deal.Unserved [sampled, edited, loaded] :=
    ⟨by decide +kernel, .inr ⟨by decide +kernel, .inl trivial⟩⟩
  exact absurd (known _ _ _ _ rfl dealt unserved) (by decide +kernel)

end Dealings

end ThresholdAlerts
