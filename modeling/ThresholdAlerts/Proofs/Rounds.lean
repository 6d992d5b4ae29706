import ThresholdAlerts.Proofs.Indexes
import ThresholdAlerts.Proofs.Solitude
import ThresholdAlerts.Proofs.Visits
/-! The rounds of a call that is made alone: it fetches the rules, brings firing states in line with them,
judges a sample and sends what waits. Main statements: what each round does to what is held for the rules, and
that all desks are free again after it. -/
namespace ThresholdAlerts

open Function Prog

def Holding.Tagged (rule : RuleId) (h : Option Holding) : Prop :=
  ∀ held ∈ h, ∀ d ∈ held.outbox, d.event.ruleId = rule

/-- No call is under way: nobody sits at a desk or waits for a refresh. -/
structure World.AtRest (w : World) : Prop where
  coherent : w.engine.tracker.Coherent
  idle : ∀ rule, (w.engine.tracker.slotFor rule).queue = []
  tagged : ∀ rule, Holding.Tagged rule (w.engine.tracker.held rule)
  turns : w.engine.rules.turns = []
  indexed : w.engine.rules.snapshot.Indexed

/-- The firing state of a rule; a rule that is not tracked is clear. -/
def World.firing (w : World) (rule : RuleId) : FiringState :=
  (w.engine.tracker.slotFor rule).state

namespace World

variable {w w' : World} {rule : RuleId} {p : RuleId → Prop}

theorem firing_eq (w : World) (rule : RuleId) :
    w.firing rule = ((w.engine.tracker.held rule).getD (.initial rule)).state := by
  rw [← Tracker.slotFor_holding]
  rfl

theorem firing_of_held (same : w'.engine.tracker.held rule = w.engine.tracker.held rule) :
    w'.firing rule = w.firing rule := by
  rw [firing_eq, same, firing_eq]

theorem firing_of_tracker (same : w'.engine.tracker = w.engine.tracker) : w'.firing rule = w.firing rule :=
  firing_of_held (by rw [same])

theorem AtRest.firing_ruleId (rest : w.AtRest) (rule : RuleId) : (w.firing rule).ruleId = rule :=
  Tracker.slotFor_stateRuleId rest.coherent rule

theorem AtRest.vacant (rest : w.AtRest) (rule : RuleId) :
    w.Vacant rule (w.engine.tracker.held rule) (w.account rule).past :=
  ⟨rest.coherent, rest.idle rule, rfl, rfl⟩

theorem AtRest.of_same (rest : w.AtRest) (tracker : w'.engine.tracker = w.engine.tracker)
    (rules : w'.engine.rules = w.engine.rules) : w'.AtRest := by
  obtain ⟨coherent, idle, tagged, turns, indexed⟩ := rest
  rw [← tracker] at coherent idle tagged
  rw [← rules] at turns indexed
  exact ⟨coherent, idle, tagged, turns, indexed⟩

theorem AtRest.after {rules : List RuleId} (rest : w.AtRest) (keeps : w.Keeps (· ∉ rules) w')
    (each : ∀ rule ∈ rules, ∃ h past, w'.Vacant rule h past ∧ Holding.Tagged rule h) : w'.AtRest := by
  refine ⟨keeps.coherent rest.coherent, fun rule => ?_, fun rule => ?_, ?_, ?_⟩
  · by_cases mem : rule ∈ rules
    · obtain ⟨h, past, vacant, -⟩ := each rule mem
      exact vacant.queue
    · rw [keeps.slot mem]
      exact rest.idle rule
  · by_cases mem : rule ∈ rules
    · obtain ⟨h, past, vacant, tagged⟩ := each rule mem
      exact vacant.held ▸ tagged
    · rw [keeps.held mem]
      exact rest.tagged rule
  · rw [keeps.rules, rest.turns]
  · rw [keeps.rules]
    exact rest.indexed

end World

theorem Holding.tagged_remains {rule : RuleId} {h : Holding} (tagged : ∀ d ∈ h.outbox, d.event.ruleId = rule) :
    Holding.Tagged rule h.remains := by
  intro held mem
  rw [remains] at mem
  split at mem
  · exact absurd mem (by simp)
  · obtain rfl := Option.some.inj mem
    exact tagged

/-! ### Fetching the rules -/

section Fetching

variable {T : Type} {team : Team T} {outside : World → World → Prop} {w w' : World}

def World.SameSource (w w' : World) : Prop :=
  w'.source.failure = w.source.failure ∧ w'.source.contents = w.source.contents

theorem World.SameSource.trans {w₁ w₂ w₃ : World} (h : w₁.SameSource w₂) (h' : w₂.SameSource w₃) :
    w₁.SameSource w₃ :=
  ⟨h'.1.trans h.1, h'.2.trans h.2⟩

theorem World.SameSource.fetch (h : w.SameSource w') : w'.source.fetch = w.source.fetch := by
  rw [RuleSource.fetch, h.1, h.2, RuleSource.fetch]

def SteadySource (outside : World → World → Prop) : Prop :=
  ∀ w w', outside w w' → w.SameSource w'

/-- Nothing that a fetch goes by has changed, but for the queue of those who refresh. -/
structure World.Holds (outside : World → World → Prop) (e : Engine) (w₀ w : World) : Prop where
  engine : w.engine = e
  ids : w.ids = w₀.ids
  journal : w.journal = w₀.journal
  source : SteadySource outside → w₀.SameSource w

theorem World.Holds.others {e : Engine} {w₀ : World} (h : World.Holds outside e w₀ w)
    (calm : ∀ {w w'}, outside w w' → w.Elsewhere w') (change : outside w w') : World.Holds outside e w₀ w' :=
  ⟨(calm change).engine.1.trans h.engine, (calm change).engine.2.2.2.trans h.ids,
    (calm change).engine.2.2.1.trans h.journal, fun steady => (h.source steady).trans (steady _ _ change)⟩

theorem handled_refreshTurn (calm : ∀ {w w'}, outside w w' → w.Elsewhere w')
    (turns : w.engine.rules.turns = []) :
    Request.refreshTurn.Handled (Pact.alone outside) w fun _ w' => ∃ ticket, World.Holds outside
      { w.engine with rules := { w.engine.rules with turns := [ticket] } } w w' := by
  let e : Engine := { w.engine with rules := { w.engine.rules with turns := [w.takeTicket.2] } }
  have begun : World.Holds outside e w (Request.refreshTurn.start w.takeTicket.2 w.takeTicket.1).1 := by
    refine ⟨?_, rfl, rfl, fun _ => ⟨rfl, rfl⟩⟩
    change { w.engine with rules := { w.engine.rules with turns := w.engine.rules.turns ++ [w.takeTicket.2] } } = e
    rw [turns]
    rfl
  refine ⟨trivial, fun w' ticket => World.Holds outside e w w' ∧ ticket = w.takeTicket.2, ⟨begun, rfl⟩,
    fun here change => ⟨here.1.others calm change, here.2⟩, ?_, ?_⟩
  all_goals
    rintro w' w'' ticket out ⟨holds, rfl⟩ polled
    have first : w'.engine.rules.turns.head? = some w.takeTicket.2 := by rw [holds.engine]; rfl
    rw [Request.poll, if_pos first] at polled
  · exact absurd (Prod.mk.inj polled).2 (by simp)
  · obtain ⟨rfl, -⟩ := Prod.mk.inj polled
    exact ⟨trivial, _, holds.engine, holds.ids, holds.journal,
      fun steady => (holds.source steady).trans ⟨rfl, rfl⟩⟩

theorem handled_fetch (calm : ∀ {w w'}, outside w w' → w.Elsewhere w') :
    Request.fetch.Handled (Pact.alone outside) w fun answer w' =>
      World.Holds outside w.engine w w' ∧ (SteadySource outside → answer = w.source.fetch) := by
  have begun : World.Holds outside w.engine w (Request.fetch.start w.takeTicket.2 w.takeTicket.1).1 :=
    ⟨rfl, rfl, rfl, fun _ => ⟨rfl, rfl⟩⟩
  have moved {w' : World} (holds : World.Holds outside w.engine w w') :
      World.Holds outside w.engine w w'.moved :=
    ⟨holds.engine, holds.ids, holds.journal, fun steady => (holds.source steady).trans ⟨rfl, rfl⟩⟩
  -- Only a source without a failure has its file read.
  refine ⟨trivial, fun w' f => World.Holds outside w.engine w w' ∧
    (SteadySource outside → f.lulls.isSome → w.source.failure = none), ⟨begun, fun _ => by simp [Request.start]⟩,
    fun here change => ⟨here.1.others calm change, here.2⟩, ?_, ?_⟩
  · rintro w' w'' f f' ⟨holds, reads⟩ polled
    rw [Request.poll] at polled
    split at polled
    · obtain ⟨rfl, same⟩ := Prod.mk.inj polled
      obtain rfl := Request.Progress.waiting.inj same
      exact ⟨trivial, holds, reads⟩
    · split at polled
      · split at polled
        · next reading =>
          obtain ⟨rfl, same⟩ := Prod.mk.inj polled
          obtain rfl := Request.Progress.waiting.inj same
          refine ⟨trivial, holds, fun steady _ => ?_⟩
          rw [RuleSource.readsFile, (holds.source steady).1] at reading
          cases failing : w.source.failure with
          | none => rfl
          | some e => simp [failing] at reading
        · exact absurd (Prod.mk.inj polled).2 (by simp)
      · split at polled
        · exact absurd (Prod.mk.inj polled).2 (by simp)
        · obtain ⟨rfl, same⟩ := Prod.mk.inj polled
          obtain rfl := Request.Progress.waiting.inj same
          exact ⟨trivial, holds, reads⟩
  · rintro w' w'' f answer ⟨holds, reads⟩ polled
    rw [Request.poll] at polled
    split at polled
    · exact absurd (Prod.mk.inj polled).2 (by simp)
    · split at polled
      · split at polled
        · exact absurd (Prod.mk.inj polled).2 (by simp)
        · obtain ⟨rfl, same⟩ := Prod.mk.inj polled
          obtain rfl := Request.Progress.answered.inj same
          exact ⟨trivial, moved holds, fun steady => (holds.source steady).fetch⟩
      · next lulls begun =>
        split at polled
        · obtain ⟨rfl, same⟩ := Prod.mk.inj polled
          obtain rfl := Request.Progress.answered.inj same
          refine ⟨trivial, moved holds, fun steady => ?_⟩
          have sound := reads steady (by rw [begun]; rfl)
          rw [(holds.source steady).2, RuleSource.fetch, sound]
        · exact absurd (Prod.mk.inj polled).2 (by simp)

/-- The rules after a fetch: those that were fetched, or the old ones if it failed. -/
def RuleStore.Took (answer : Except SourceError (List Rule)) (s s' : RuleStore) : Prop :=
  match answer with
  | .ok rules => ∃ now, s'.snapshot = .build rules (s.snapshot.generation + 1) now
  | .error _ => s'.snapshot = s.snapshot

/-- The failure that stays on record after a fetch. -/
def RuleStore.recorded : Except SourceError (List Rule) → Option SourceError
  | .ok _ => none
  | .error e => some e

/-- The rules were fetched, and nothing else was done. -/
structure World.Fetched (answer : Except SourceError (List Rule)) (w w' : World) : Prop where
  tracker : w'.engine.tracker = w.engine.tracker
  reconciled : w'.engine.reconciled = w.engine.reconciled
  ids : w'.ids = w.ids
  journal : w'.journal = w.journal
  turns : w'.engine.rules.turns = []
  invalidated : w'.engine.rules.invalidated = false
  lastError : w'.engine.rules.lastError = RuleStore.recorded answer
  took : w.engine.rules.Took answer w'.engine.rules

theorem World.Fetched.atRest {answer : Except SourceError (List Rule)} (rest : w.AtRest)
    (fetched : w.Fetched answer w') : w'.AtRest := by
  obtain ⟨coherent, idle, tagged, -, indexed⟩ := rest
  rw [← fetched.tracker] at coherent idle tagged
  refine ⟨coherent, idle, tagged, fetched.turns, ?_⟩
  have took := fetched.took
  cases answer with
  | ok rules =>
    obtain ⟨now, same⟩ := took
    rw [same]
    exact RuleSnapshot.indexed_build ..
  | error e =>
    have same : w'.engine.rules.snapshot = w.engine.rules.snapshot := took
    rw [same]
    exact indexed

/-- A fetch in turn, by whoever holds the turn. -/
theorem ensures_fetchRules {w₀ : World} {ticket : Ticket} {post : Except SourceError RuleSnapshot → World → Prop}
    (calm : ∀ {w w'}, outside w w' → w.Elsewhere w')
    (holds : World.Holds outside { w₀.engine with rules := { w₀.engine.rules with turns := [ticket] } } w₀ w)
    (goes : ∀ result answer w', w₀.Fetched answer w'.endTurn →
      (result = answer.map fun _ => w'.engine.rules.snapshot) →
      (SteadySource outside → answer = w₀.source.fetch) → post result w') :
    (fetchRules : Prog T _).Ensures (Pact.alone outside) team w post := by
  refine ensures_modify trivial (ensures_request ((handled_fetch calm).imp fun answer w₁ ⟨still, same⟩ => ?_))
  have engine : w₁.engine = { w₀.engine with
      rules := ({ w₀.engine.rules with turns := [ticket] } : RuleStore).beginFetch } := by
    rw [still.engine, World.onRules, World.onEngine, holds.engine]
  have ids : w₁.ids = w₀.ids := still.ids.trans holds.ids
  have journal : w₁.journal = w₀.journal := still.journal.trans holds.journal
  have source (steady : SteadySource outside) : answer = w₀.source.fetch :=
    (same steady).trans (holds.source steady).fetch
  have tracker : w₁.engine.tracker = w₀.engine.tracker := by rw [engine]
  have reconciled : w₁.engine.reconciled = w₀.engine.reconciled := by rw [engine]
  have turns : w₁.engine.rules.turns.tail = [] := congrArg (·.rules.turns.tail) engine
  have invalidated : w₁.engine.rules.invalidated = false := congrArg (·.rules.invalidated) engine
  have snapshot : w₁.engine.rules.snapshot = w₀.engine.rules.snapshot := congrArg (·.rules.snapshot) engine
  cases answer with
  | ok rules =>
    refine ensures_step trivial
      (goes _ (.ok rules) _ ⟨tracker, reconciled, ids, journal, turns, invalidated, rfl, ?_⟩ rfl source)
    exact ⟨w₁.readCalendar.2, snapshot ▸ rfl⟩
  | error e =>
    exact ensures_modify trivial
      (goes _ (.error e) _ ⟨tracker, reconciled, ids, journal, turns, invalidated, rfl, snapshot⟩ rfl source)

theorem ensures_refreshRules {post : Except SourceError RuleSnapshot → World → Prop} (rest : w.AtRest)
    (calm : ∀ {w w'}, outside w w' → w.Elsewhere w')
    (goes : ∀ answer w', w.Fetched answer w' → (SteadySource outside → answer = w.source.fetch) →
      post (answer.map fun _ => w'.engine.rules.snapshot) w') :
    (refreshRules : Prog T _).Ensures (Pact.alone outside) team w post := by
  refine ensures_request ((handled_refreshTurn calm rest.turns).imp fun _ w₁ ⟨ticket, holds⟩ => ensures_then ?_)
  refine ensures_fetchRules calm holds fun result answer w₂ fetched same source => ?_
  exact ensures_modify trivial (ensures_pure (same ▸ goes answer _ fetched source))

/-- The rules are up to date unless they were invalidated, and then they are fetched. -/
theorem ensures_currentRules {post : RuleSnapshot → World → Prop} (rest : w.AtRest)
    (calm : ∀ {w w'}, outside w w' → w.Elsewhere w')
    (valid : w.engine.rules.invalidated = false → post w.engine.rules.snapshot w)
    (goes : w.engine.rules.invalidated = true → ∀ answer w', w.Fetched answer w' →
      (SteadySource outside → answer = w.source.fetch) → post w'.engine.rules.snapshot w') :
    (currentRules : Prog T _).Ensures (Pact.alone outside) team w post := by
  refine ensures_read ?_
  cases invalidated : w.engine.rules.invalidated with
  | false => exact ensures_read (ensures_pure (valid invalidated))
  | true =>
    refine ensures_request ((handled_refreshTurn calm rest.turns).imp fun _ w₁ ⟨ticket, holds⟩ => ensures_read ?_)
    have still : w₁.engine.rules.invalidated = true := by
      rw [holds.engine]
      exact invalidated
    rw [still]
    refine ensures_then (ensures_fetchRules calm holds fun result answer w₂ fetched same source => ?_)
    exact ensures_modify trivial (ensures_read (ensures_pure (goes invalidated answer _ fetched source)))

end Fetching

/-! ### Bringing firing states in line -/

theorem World.AtRest.named {w : World} {rule : RuleId} {h : Holding} (rest : w.AtRest)
    (held : w.engine.tracker.held rule = some h) : h.state.ruleId = rule := by
  obtain ⟨id, found, rfl⟩ := Option.map_eq_some_iff.mp held
  exact rest.coherent.stateRuleId found

theorem Holding.Reconciled.tagged {definition : Option Rule} {announced : Bool} {rule : RuleId}
    {h h' : Option Holding} {events : List Event} (reconciled : Holding.Reconciled definition announced h events h')
    (named : ∀ held ∈ h, held.state.ruleId = rule) (tagged : Holding.Tagged rule h) : Holding.Tagged rule h' := by
  cases reconciled with
  | untracked => exact tagged
  | tracked time state retired outbox quiet =>
    refine Holding.tagged_remains fun d mem => ?_
    rcases outbox d mem with ⟨d₀, old, same⟩ | new
    · exact same ▸ tagged _ rfl d₀ old
    · exact (FiringState.ruleId_settle (Option.mem_toList.mp new)).trans (named _ rfl)

/-- The firing states of some rules were brought in line with their definitions. -/
structure World.Aligned (announced : Bool) (rules : List RuleId) (w : World) (events : RuleId → List Event)
    (w' : World) : Prop where
  rest : w'.AtRest
  each : ∀ rule ∈ rules, Holding.Reconciled (w.rule? rule) announced (w.engine.tracker.held rule) (events rule)
    (w'.engine.tracker.held rule)
  told : ∀ rule ∈ rules, (w.account rule).Tells (events rule) (w'.account rule)
  others : ∀ rule ∉ rules, w'.engine.tracker.held rule = w.engine.tracker.held rule
  silent : ∀ rule ∉ rules, w'.account rule = w.account rule
  rules : w'.engine.rules = w.engine.rules
  reconciled : w'.engine.reconciled = w.engine.reconciled
  ids : w'.ids = w.ids

section Aligning

variable {T : Type} {team : Team T} {outside : World → World → Prop} {w w' : World} {rule : RuleId}

def World.Leaves (w : World) (announced : Bool) (rule : RuleId) (events : List Event) (w' : World) : Prop :=
  ∃ h past, w'.Vacant rule h past ∧
    Holding.Reconciled (w.rule? rule) announced (w.engine.tracker.held rule) events h ∧
    (w.account rule).Tells events (w'.account rule)

theorem World.AtRest.aligned {announced : Bool} {rules : List RuleId} {events : RuleId → List Event}
    (rest : w.AtRest) (each : ∀ rule ∈ rules, w.Leaves announced rule (events rule) w')
    (keeps : w.Keeps (· ∉ rules) w') (quiet : w.Quiet w') : w.Aligned announced rules events w' := by
  refine ⟨rest.after keeps fun rule mem => ?_, fun rule mem => ?_, fun rule mem => ?_,
    fun rule absent => keeps.held absent, fun rule absent => keeps.account absent, keeps.rules, keeps.reconciled,
    quiet.ids⟩
  · obtain ⟨h, past, vacant, reconciled, -⟩ := each rule mem
    exact ⟨h, past, vacant, reconciled.tagged (fun held => rest.named) (rest.tagged rule)⟩
  · obtain ⟨h, past, vacant, reconciled, -⟩ := each rule mem
    exact vacant.held ▸ reconciled
  · obtain ⟨h, past, -, -, told⟩ := each rule mem
    exact told

theorem ensures_announced [team.Monotone] (rest : w.AtRest) (announced : Bool)
    (calm : ∀ {w w'}, outside w w' → w.Elsewhere w') :
    (reconcileRule rule announced : Prog T _).Ensures (Pact.alone outside) team w fun events w' =>
      w.Aligned announced [rule] (fun _ => events) w' := by
  refine ((ensures_reconcileRule (rest.vacant rule) announced).alone calm).weaken ?_
  rintro events w' ⟨⟨h, past, vacant, reconciled, told⟩, keeps, quiet⟩
  refine rest.aligned (fun rule' mem => ?_) (keeps.mono fun {rule'} away => ?_) quiet
  · obtain rfl := List.mem_singleton.mp mem
    exact ⟨h, past, vacant, reconciled, told⟩
  · exact fun same => away (List.mem_singleton.mpr same)

def World.reconciling (w : World) (rule : RuleId) : Errand where
  rule := rule
  post events w' := w.Leaves false rule events w'
  settled := fun ⟨h, past, vacant, reconciled, told⟩ keeps =>
    ⟨h, past, vacant.others keeps, reconciled, (keeps.account rfl).symm ▸ told⟩

theorem World.AtRest.stands_reconciling (rest : w.AtRest) (rule : RuleId) :
    (w.reconciling rule).Stands w (Visit.tasks.ready (.reconcile rule false)) := by
  refine ⟨fun w' => w'.Vacant rule (w.engine.tracker.held rule) (w.account rule).past ∧
    w'.engine.rules = w.engine.rules, ⟨rest.vacant rule, rfl⟩,
    fun here keeps => ⟨here.1.others keeps, keeps.rules.trans here.2⟩, ?_⟩
  rintro w' ⟨vacant, same⟩
  have known : w'.rule? rule = w.rule? rule := by rw [World.rule?, same, World.rule?]
  refine (ensures_reconcileRule vacant false).weaken ?_
  rintro events w'' ⟨h, past, vacant', reconciled, told⟩
  rw [vacant.account, ← (rest.vacant rule).account] at told
  exact ⟨h, past, vacant', known ▸ reconciled, told⟩

/-- What holds of the members of a list without repetitions and of the results for them. -/
theorem exists_of_forall₂ [DecidableEq α] {R : α → β → Prop} {l : List α} {l' : List β} [Inhabited β]
    (h : List.Forall₂ R l l') (once : l.Nodup) : ∃ f : α → β, l' = l.map f ∧ ∀ a ∈ l, R a (f a) := by
  induction h with
  | nil => exact ⟨fun _ => default, rfl, by simp⟩
  | @cons a b l l' here others ih =>
    obtain ⟨fresh, once⟩ := List.nodup_cons.mp once
    obtain ⟨f, rfl, each⟩ := ih once
    refine ⟨update f a b, ?_, fun a' mem => ?_⟩
    · have others : l.map (update f a b) = l.map f := List.map_congr_left fun a' mem =>
        update_of_ne (ne_of_mem_of_not_mem mem fresh) b f
      rw [List.map_cons, update_self, others]
    · by_cases same : a' = a
      · subst same
        rw [update_self]
        exact here
      · rw [update_of_ne same]
        exact each a' ((List.mem_cons.mp mem).resolve_left same)

theorem Tracker.nodup_ruleIds (t : Tracker) : t.ruleIds.Nodup :=
  Std.TreeMap.nodup_keys

theorem Tracker.held_of_unlisted {t : Tracker} (absent : rule ∉ t.ruleIds) : t.held rule = none :=
  find?_eq_none.mp (Classical.not_not.mp fun tracked => absent (mem_ruleIds.mpr tracked))

/-- All tracked rules are brought in line side by side. -/
theorem ensures_reconcileAll (rest : w.AtRest) (calm : ∀ {w w'}, outside w w' → w.Elsewhere w') :
    (all (w.engine.tracker.ruleIds.map (Visit.reconcile · false))).Ensures (Pact.alone outside)
      (Team.polled outside) w fun events w' => ∃ each, events = w.engine.tracker.ruleIds.flatMap each ∧
        w.Aligned false w.engine.tracker.ruleIds each w' := by
  generalize ids : w.engine.tracker.ruleIds = rules
  have once : rules.Nodup := ids ▸ w.engine.tracker.nodup_ruleIds
  have names : (rules.map w.reconciling).map (·.rule) = rules := by simp [World.reconciling, Function.comp_def]
  have apart : ((rules.map w.reconciling).map (·.rule)).Nodup := names.symm ▸ once
  have ready : List.Forall₂ (fun e v => e.Stands w (Visit.tasks.ready v)) (rules.map w.reconciling)
      (rules.map (Visit.reconcile · false)) := by
    rw [List.forall₂_map_left_iff, List.forall₂_map_right_iff]
    exact List.forall₂_same.mpr fun rule _ => rest.stands_reconciling rule
  refine Team.Monotone.imp (Errand.team apart calm ready) fun results w' ⟨each, keeps, quiet⟩ => ?_
  rw [names] at keeps
  obtain ⟨events, rfl, done⟩ := exists_of_forall₂ (List.forall₂_map_left_iff.mp each) once
  exact ⟨events, List.flatMap_def.symm, rest.aligned done keeps quiet⟩

def World.claimed (w : World) (generation : Nat) : World :=
  w.onEngine fun e => { e with reconciled := generation }

/-- The rules of a generation were taken up, unless that was claimed before. -/
inductive World.TakesUp (generation : Nat) (w : World) : List Event → World → Prop
  | claims {w' : World} (newer : w.engine.reconciled < generation) (events : RuleId → List Event)
      (aligned : (w.claimed generation).Aligned false w.engine.tracker.ruleIds events w') :
      TakesUp generation w (w.engine.tracker.ruleIds.flatMap events) w'
  | passes (older : generation ≤ w.engine.reconciled) : TakesUp generation w [] w

theorem ensures_reconcileIfNewer {generation : Nat} (rest : w.AtRest)
    (calm : ∀ {w w'}, outside w w' → w.Elsewhere w') :
    (reconcileIfNewer generation).Ensures (Pact.alone outside) (Team.polled outside) w
      (w.TakesUp generation) := by
  refine ensures_step trivial ?_
  rw [World.claimGeneration]
  split
  · next newer =>
    refine ensures_read ?_
    have rest' : (w.claimed generation).AtRest := rest.of_same rfl rfl
    refine (ensures_reconcileAll rest' calm).weaken ?_
    rintro events w' ⟨each, rfl, aligned⟩
    exact .claims newer each aligned
  · next older => exact ensures_pure (.passes (Nat.le_of_not_lt older))

theorem World.TakesUp.atRest {generation : Nat} {events : List Event} (rest : w.AtRest)
    (takes : w.TakesUp generation events w') : w'.AtRest := by
  cases takes with
  | claims newer events aligned => exact aligned.rest
  | passes older => exact rest

end Aligning

/-! ### Judging a sample -/

/-- A sample was judged by some rules. -/
structure World.Judged (value : Float) (time : Timestamp) (rules : List Rule) (w : World)
    (rulings : List (FiringState × List Event)) (w' : World) : Prop where
  rest : w'.AtRest
  judged : rulings = FiringState.judgeEach w.firing value time w.ids rules
  each : List.Forall₂ (fun r ruling => ∃ h, w'.engine.tracker.held r.id = some h ∧ h.state = ruling.1 ∧
    h.retired = false) rules rulings
  others : ∀ rule ∉ rules.map Rule.id, w'.engine.tracker.held rule = w.engine.tracker.held rule
  rules : w'.engine.rules = w.engine.rules
  reconciled : w'.engine.reconciled = w.engine.reconciled
  ids : w'.ids = w.ids.after (Event.opens (rulings.flatMap (·.2))).length

/-- What a rule that judged a sample holds afterwards. -/
theorem World.Judged.judges {w w' : World} {value : Float} {time : Timestamp} {rules : List Rule}
    {rulings : List (FiringState × List Event)} {r : Rule} (judged : w.Judged value time rules rulings w')
    (listed : r ∈ rules) :
    ∃ fresh h, (r, (w.firing r.id).judge fresh r value time) ∈ rules.zip rulings ∧
      w'.engine.tracker.held r.id = some h ∧ h.state = ((w.firing r.id).judge fresh r value time).1 ∧
      h.retired = false := by
  have each := FiringState.forall₂_judgeEach w.firing value time w.ids rules
  rw [← judged.judged] at each
  obtain ⟨ruling, there⟩ : ∃ ruling, (r, ruling) ∈ rules.zip rulings := by
    obtain ⟨i, inside, rfl⟩ := List.mem_iff_getElem.mp listed
    have bound : i < rulings.length := judged.each.length_eq ▸ inside
    have within : i < (rules.zip rulings).length := by
      rw [List.length_zip]
      exact Nat.lt_min.mpr ⟨inside, bound⟩
    exact ⟨rulings[i], List.mem_iff_getElem.mpr ⟨i, within, List.getElem_zip⟩⟩
  obtain ⟨fresh, rfl⟩ := List.forall₂_zip each there
  obtain ⟨h, held, state, kept⟩ := List.forall₂_zip judged.each there
  exact ⟨fresh, h, there, held, state, kept⟩

section Judging

variable {outside : World → World → Prop} {w w' : World} {r : Rule} {h : Option Holding}
  {past : List Happening} {value : Float} {time : Timestamp} {metric : String}

theorem Prog.Ensures.advances {pact : Pact} {p : Prog Empty α} {post : α → World → Prop}
    (h : p.Ensures pact Team.nobody w post) :
    pact.self w (p.advance Tasks.none w).1 ∧
      Thread.Keeps pact post (p.advance Tasks.none w).1 (p.advance Tasks.none w).2 := by
  obtain ⟨self, keeps⟩ := h.stretch (t := Tasks.none)
  have moves : Thread.Moves Tasks.none (fun _ _ _ _ => False) (p.stretch Tasks.none w) (p.advance Tasks.none w) :=
    Thread.moves_advance (fun _ child => nomatch child) p w
  obtain ⟨self', keeps'⟩ := keeps.moves moves
  exact ⟨pact.goesOn self self', keeps'⟩

def Rule.judging (r : Rule) (ruling : FiringState × List Event) : Errand where
  rule := r.id
  post events w := events = ruling.2 ∧ ∃ h past, w.Vacant r.id (some h) past ∧ h.state = ruling.1 ∧
    h.retired = false ∧ Holding.Tagged r.id (some h)
  settled := fun ⟨same, h, past, vacant, holds⟩ keeps => ⟨same, h, past, vacant.others keeps, holds⟩

/-- A visit that finds its desk free judges the sample when it is polled for the first time. -/
theorem poll_evaluate (value : Float) (time : Timestamp) (v : w.Vacant r.id h past) (tagged : Holding.Tagged r.id h)
    (known : w.rule? r.id = some r) (watches : r.metricKey = metric) :
    let polled := Visit.tasks.poll (Visit.tasks.ready (.evaluate r.id metric value time)) w
    let ruling := (h.getD (.initial r.id)).state.judge w.ids.next r value time
    w.Keeps (· ≠ r.id) polled.1 ∧ polled.1.ids = w.ids.after (Event.opens ruling.2).length ∧
      (r.judging ruling).Stands polled.1 polled.2 := by
  intro polled ruling
  obtain ⟨id, w₁, ticket, goes, self, seated⟩ := Prog.advance_slot (t := Tasks.none) v fun slot =>
    evaluateIn slot r.id metric value time
  have polled_eq : polled = _ := goes
  have found : (w₁.rule? r.id).filter (·.metricKey = metric) = some r := by
    rw [World.rule?, self.1.rules, ← World.rule?, known]
    simp [watches]
  have reads : polled = Prog.advance Tasks.none (do
      dispatchAll id (w₁.judge id r value time).2
      modify (·.leave id)
      return (w₁.judge id r value time).2) (w₁.judge id r value time).1 := by
    rw [polled_eq, evaluateIn, Prog.advance_read, found]
    rfl
  obtain ⟨events, about, keeps, -, ids, there⟩ := seated.judges rfl value time
  rw [self.2.ids] at events about ids there
  rw [reads, events]
  have ends : (do dispatchAll id ruling.2; modify (·.leave id); return ruling.2 : Prog Empty (List Event)).Ensures
      (Pact.desk r.id) Team.nobody (w₁.judge id r value time).1 (r.judging ruling).post := by
    refine (ensures_leaving there about ruling.2).weaken ?_
    rintro out w' ⟨same, a, passes, vacant⟩
    refine ⟨same, a.holding, a.past, vacant, passes.state, passes.retired, fun held mem d waits => ?_⟩
    obtain rfl := Option.some.inj mem
    rcases passes.outbox d waits with ⟨d₀, old, alike⟩ | new
    · cases h with
      | none => exact absurd old (by simp [Holding.judged, Holding.initial])
      | some held => exact alike ▸ tagged held rfl d₀ old
    · exact about _ new
  obtain ⟨self', stands⟩ := ends.advances
  exact ⟨(self.1.trans keeps).trans self'.1, self'.2.ids.trans ids, stands⟩

/-- In the first round the rules draw the ids of their alerts in turn. -/
theorem pollEach_evaluate {rules : List Rule} (value : Float) (time : Timestamp)
    (once : (rules.map Rule.id).Nodup) (rest : w.AtRest)
    (known : ∀ r ∈ rules, w.rule? r.id = some r ∧ r.metricKey = metric) :
    let visits := rules.map fun r => Visit.tasks.ready (.evaluate r.id metric value time)
    let first := Visit.tasks.members.pollEach visits w
    let rulings := FiringState.judgeEach w.firing value time w.ids rules
    List.Forall₂ (Errand.Stands first.1) (List.zipWith Rule.judging rules rulings) first.2 ∧
      w.Keeps (· ∉ rules.map Rule.id) first.1 ∧
      first.1.ids = w.ids.after (Event.opens (rulings.flatMap (·.2))).length := by
  suffices ∀ w₁, (∀ r ∈ rules, w₁.Vacant r.id (w.engine.tracker.held r.id) (w.account r.id).past ∧
      w₁.rule? r.id = some r ∧ r.metricKey = metric) →
      let visits := rules.map fun r => Visit.tasks.ready (.evaluate r.id metric value time)
      let first := Visit.tasks.members.pollEach visits w₁
      let rulings := FiringState.judgeEach w.firing value time w₁.ids rules
      List.Forall₂ (Errand.Stands first.1) (List.zipWith Rule.judging rules rulings) first.2 ∧
        w₁.Keeps (· ∉ rules.map Rule.id) first.1 ∧
        first.1.ids = w₁.ids.after (Event.opens (rulings.flatMap (·.2))).length from
    this w fun r mem => ⟨rest.vacant r.id, known r mem⟩
  clear known
  induction rules with
  | nil =>
    intro w₁ _
    exact ⟨.nil, .refl _ w₁, rfl⟩
  | cons r others ih =>
    intro w₁ each
    obtain ⟨fresh, once⟩ := List.nodup_cons.mp once
    obtain ⟨⟨vacant, known, watches⟩, each⟩ := List.forall_mem_cons.mp each
    have polled := poll_evaluate value time vacant (rest.tagged r.id) known watches
    rw [← World.firing_eq] at polled
    dsimp only at polled ⊢
    rw [List.map_cons, Members.pollEach_cons, FiringState.judgeEach]
    rw [show Visit.tasks.members.poll = Visit.tasks.poll from rfl]
    generalize Visit.tasks.poll (Visit.tasks.ready (.evaluate r.id metric value time)) w₁ = p at polled ⊢
    obtain ⟨w₂, c⟩ := p
    obtain ⟨keeps, ids, stands⟩ := polled
    have later := ih once w₂ fun r' mem => by
      have apart : r'.id ≠ r.id := fun same => fresh (same ▸ List.mem_map_of_mem mem)
      obtain ⟨vacant', known', watches'⟩ := each r' mem
      refine ⟨vacant'.others (keeps.mono fun same => same ▸ apart), ?_, watches'⟩
      rw [World.rule?, keeps.rules, ← World.rule?, known']
    dsimp only at keeps ids stands later ⊢
    rw [ids] at later
    generalize Visit.tasks.members.pollEach (others.map fun r =>
      Visit.tasks.ready (.evaluate r.id metric value time)) w₂ = polled at later ⊢
    obtain ⟨stands', keeps', ids'⟩ := later
    refine ⟨.cons (stands.others (keeps'.mono fun {rule} (same : rule = r.id) mem => fresh (same ▸ mem))) stands',
      (keeps.mono fun away same => ?_).trans (keeps'.mono fun away mem => ?_), ?_⟩
    · exact away (same ▸ List.mem_cons_self)
    · exact away (List.mem_cons_of_mem _ mem)
    · rw [ids', List.flatMap_cons, Event.opens_append, List.length_append]
      simp only [Supply.after, Nat.add_assoc]

theorem forall₂_judging {rules : List Rule} {rulings : List (FiringState × List Event)}
    {results : List (List Event)} (lengths : rules.length = rulings.length)
    (each : List.Forall₂ (fun e events => e.post events w) (List.zipWith Rule.judging rules rulings) results) :
    results = rulings.map (·.2) ∧ List.Forall₂ (fun r ruling => (r.judging ruling).post ruling.2 w) rules rulings := by
  induction rules generalizing rulings results with
  | nil =>
    obtain rfl := List.length_eq_zero_iff.mp lengths.symm
    cases each
    exact ⟨rfl, .nil⟩
  | cons r rules ih =>
    obtain ⟨ruling, rulings, rfl⟩ := List.exists_cons_of_length_eq_add_one lengths.symm
    cases each with
    | cons here others =>
      obtain ⟨rfl, -⟩ := id here
      obtain ⟨rfl, each⟩ := ih (Nat.succ.inj lengths) others
      exact ⟨rfl, .cons here each⟩

/-- The rules of a metric judge a sample side by side. -/
theorem ensures_evaluateEach {rules : List Rule} (rest : w.AtRest)
    (calm : ∀ {w w'}, outside w w' → w.Elsewhere w') (once : (rules.map Rule.id).Nodup)
    (known : ∀ r ∈ rules, w.rule? r.id = some r ∧ r.metricKey = metric) :
    (all (rules.map fun r => Visit.evaluate r.id metric value time)).Ensures (Pact.alone outside)
      (Team.polled outside) w fun events w' => ∃ rulings, events = rulings.flatMap (·.2) ∧
        w.Judged value time rules rulings w' := by
  let rulings := FiringState.judgeEach w.firing value time w.ids rules
  have lengths : rules.length = rulings.length :=
    (FiringState.forall₂_judgeEach w.firing value time w.ids rules).length_eq
  let errands := List.zipWith Rule.judging rules rulings
  have names : errands.map (·.rule) = rules.map Rule.id :=
    List.ext_getElem (by simp [errands, lengths]) fun i _ _ => by simp [errands, Rule.judging]
  have visits : (rules.map fun r => Visit.evaluate r.id metric value time).map Visit.tasks.ready =
      rules.map fun r => Visit.tasks.ready (.evaluate r.id metric value time) := List.map_map
  obtain ⟨stands, keeps, ids⟩ := pollEach_evaluate value time once rest known
  rw [← visits] at stands keeps ids
  have party := Errand.party errands (names.symm ▸ once) calm
    (Visit.tasks.members.pollEach
      ((rules.map fun r => Visit.evaluate r.id metric value time).map Visit.tasks.ready) w).1
  have team : Team.polled outside (rules.map fun r => Visit.evaluate r.id metric value time) w _ :=
    ⟨_, party, stands, .refl _ _, .refl _⟩
  refine Team.Monotone.imp team fun results w' ⟨each, keeps', quiet⟩ => ?_
  rw [names] at keeps'
  obtain ⟨same, posts⟩ := forall₂_judging lengths each
  have frame := keeps.trans keeps'
  refine ⟨rulings, same ▸ List.flatMap_def.symm, rest.after frame fun rule mem => ?_, rfl,
    posts.imp fun r ruling ⟨_, h, past, vacant, state, retired, _⟩ => ⟨h, vacant.held, state, retired⟩,
    fun rule away => frame.held away, frame.rules, frame.reconciled, quiet.ids.trans ids⟩
  obtain ⟨r, there, rfl⟩ := List.mem_map.mp mem
  have free := (List.forall₂_and_left _ _).mp
    (posts.imp fun r ruling ⟨_, h, past, vacant, _, _, tagged⟩ =>
      (⟨⟨some h, past, vacant, tagged⟩, trivial⟩ :
        (∃ h past, w'.Vacant r.id h past ∧ Holding.Tagged r.id h) ∧ True))
  exact free.1 r there

end Judging

/-! ### Sending what waits -/

/-- The firing state stays as it is, and what waits afterwards waited before. -/
structure Account.Lightens (a a' : Account) : Prop where
  state : a'.state = a.state
  retired : a'.retired = a.retired
  outbox : ∀ d ∈ a'.outbox, ∃ d₀ ∈ a.outbox, d₀.event = d.event

theorem Account.Lightens.refl (a : Account) : a.Lightens a :=
  ⟨rfl, rfl, fun d mem => ⟨d, mem, rfl⟩⟩

theorem Account.Lightens.trans {a₁ a₂ a₃ : Account} (h : a₁.Lightens a₂) (h' : a₂.Lightens a₃) :
    a₁.Lightens a₃ := by
  refine ⟨h'.state.trans h.state, h'.retired.trans h.retired, fun d mem => ?_⟩
  obtain ⟨d₁, mem₁, same₁⟩ := h'.outbox d mem
  obtain ⟨d₀, mem₀, same₀⟩ := h.outbox d₁ mem₁
  exact ⟨d₀, mem₀, same₀.trans same₁⟩

section Sending

variable {T : Type} {team : Team T} {outside : World → World → Prop} {w w' : World} {rule : RuleId}
  {id : SlotId} {ticket : Ticket} {a : Account} {front : Delivery} {rest : Outbox}

theorem World.Seated.delivered (seated : w.Seated rule id ticket a) (due : a.outbox = front :: rest) :
    let w' := w.delivered id front rest
    (Pact.desk rule).self w w' ∧ ∃ a', w'.Seated rule id ticket a' ∧ a'.outbox = rest ∧ a.Lightens a' := by
  intro w'
  have waits : (w.slot id).outbox = front :: rest := seated.outbox.trans due
  obtain ⟨alters, turn⟩ : w.Alters id [] w' ∧ Turn .serving rule (w.moment rule w') (w.account rule)
      (some { stage := .accepted }) (w'.account rule) (some { stage := .draining }) :=
    World.delivered_turn seated.found waits
  have edit : Edit .serving rule id w { stage := .accepted } w' (some { stage := .draining }) := .delivered waits
  obtain ⟨self, there⟩ := seated.alters alters (by simp) edit.names (World.unmarked_delivered ..)
  refine ⟨self, _, there, ?_⟩
  rw [seated.account] at turn
  generalize w'.account rule = a' at turn
  cases turn with
  | delivered due' =>
    obtain ⟨-, rfl⟩ := List.cons.inj (due'.symm.trans due)
    exact ⟨rfl, rfl, rfl, fun d mem => ⟨d, due ▸ List.mem_cons_of_mem _ mem, rfl⟩⟩

theorem World.Seated.failedAgain (seated : w.Seated rule id ticket a) (due : a.outbox = front :: rest)
    (named : front.event.ruleId = rule) (error : SinkError) :
    let result := w.failedAgain id front rest error
    (Pact.desk rule).self w result.1 ∧ ∃ a', result.1.Seated rule id ticket a' ∧
      (result.2 = true → a'.outbox = rest) ∧ a.Lightens a' := by
  intro result
  have waits : (w.slot id).outbox = front :: rest := seated.outbox.trans due
  obtain ⟨news, alters, about, turn⟩ : ∃ news, w.Alters id news result.1 ∧ (∀ n ∈ news, n.ruleId = rule) ∧
      Turn .serving rule (w.moment rule result.1) (w.account rule) (some { stage := .refused error })
        (result.1.account rule) (some { stage := .draining }) := World.failedAgain_turn seated.found named waits
  have edit : Edit .serving rule id w { stage := .refused error } result.1 (some { stage := .draining }) :=
    .failedAgain waits
  obtain ⟨self, there⟩ := seated.alters alters about edit.names (World.unmarked_failedAgain ..)
  refine ⟨self, _, there, fun gone => ?_, ?_⟩
  · rw [← there.outbox]
    exact outbox_failedAgain gone
  · rw [seated.account] at turn
    generalize result.1.account rule = a' at turn
    cases turn with
    | delayed due' same counted later =>
      obtain ⟨first, rfl⟩ := List.cons.inj (due'.symm.trans due)
      refine ⟨rfl, rfl, fun d mem => ?_⟩
      rcases List.mem_cons.mp mem with rfl | old
      · exact ⟨front, due ▸ List.mem_cons_self, (same.trans (congrArg Delivery.event first)).symm⟩
      · exact ⟨d, due ▸ List.mem_cons_of_mem _ old, rfl⟩
    | givenUp due' =>
      obtain ⟨-, rfl⟩ := List.cons.inj (due'.symm.trans due)
      exact ⟨rfl, rfl, fun d mem => ⟨d, due ▸ List.mem_cons_of_mem _ mem, rfl⟩⟩

/-- What is due is sent front to back. -/
theorem ensures_drain [team.Monotone] {outbox : Outbox} {now : Duration} {report : RetryReport}
    (seated : w.Seated rule id ticket a) (waits : a.outbox = outbox)
    (tagged : ∀ d ∈ outbox, d.event.ruleId = rule) :
    (drain id now outbox report : Prog T _).Ensures (Pact.desk rule) team w fun _ w' =>
      ∃ a', w'.Seated rule id ticket a' ∧ a.Lightens a' := by
  induction outbox generalizing w a report with
  | nil => exact ensures_pure ⟨a, seated, .refl a⟩
  | cons front rest ih =>
    obtain ⟨named, tagged⟩ := List.forall_mem_cons.mp tagged
    rw [drain]
    split
    · refine ensures_request ((Request.handled_deliver seated named).imp fun answer w₁ answered => ?_)
      have again : a.Lightens { a with past := .answered front.event answer :: .sent front.event :: a.past } :=
        ⟨rfl, rfl, fun d mem => ⟨d, mem, rfl⟩⟩
      cases answer with
      | ok _ =>
        obtain ⟨self, a', there, left, lightens⟩ := answered.delivered waits
        refine ensures_modify self ((ih there left tagged).weaken ?_)
        rintro _ w₂ ⟨a'', there', lightens'⟩
        exact ⟨a'', there', (again.trans lightens).trans lightens'⟩
      | error error =>
        obtain ⟨self, a', there, left, lightens⟩ := answered.failedAgain waits named error
        refine ensures_step self ?_
        split
        · next gone =>
          refine (ih there (left gone) tagged).weaken ?_
          rintro _ w₂ ⟨a'', there', lightens'⟩
          exact ⟨a'', there', (again.trans lightens).trans lightens'⟩
        · exact ensures_pure ⟨a', there, again.trans lightens⟩
    · exact ensures_pure ⟨a, seated, .refl a⟩

/-- What comes of sending what waits for a rule. -/
inductive Holding.Relieved : Option Holding → Option Holding → Prop
  | untracked : Relieved none none
  | tracked {h h' : Holding} (state : h'.state = h.state) (retired : h'.retired = h.retired)
      (outbox : ∀ d ∈ h'.outbox, ∃ d₀ ∈ h.outbox, d₀.event = d.event)
      (spent : h'.retired = true → h'.outbox = [] → False) : Relieved (some h) (some h')
  | gone {h : Holding} (retired : h.retired = true) : Relieved (some h) none

theorem ensures_retryRule {h : Option Holding} {past : List Happening} {report : RetryReport}
    (v : w.Vacant rule h past) (tagged : Holding.Tagged rule h) :
    (retryRule rule report : Prog T _).Ensures (Pact.desk rule) Team.nobody w fun _ w' =>
      ∃ h' past', w'.Vacant rule h' past' ∧ Holding.Relieved h h' := by
  refine ensures_request ((Request.handled_existingSlot v).imp fun answer w₁ answered => ?_)
  rcases answered with ⟨rfl, rfl, vacant⟩ | ⟨held, id, ticket, rfl, rfl, seated⟩
  · have notes : w₁.Notes [] (w₁.onTracker (·.unmarkBacklogged rule)) := ⟨rfl, rfl, rfl, rfl, rfl, rfl, rfl⟩
    exact ⟨⟨notes.keeps (by simp), notes.quiet (by simp)⟩, none, past, vacant.noted notes, .untracked⟩
  · refine ensures_read (ensures_read ?_)
    have about : ∀ d ∈ (held.account past).outbox, d.event.ruleId = rule := tagged held rfl
    rw [seated.outbox]
    refine (ensures_drain seated rfl about).bind fun report' w₂ ⟨a, there, lightens⟩ => ensures_read ?_
    rw [there.outbox]
    split
    · next empty =>
      have none : a.outbox = [] := List.length_eq_zero_iff.mp empty
      have notes : w₂.Notes [] (w₂.onTracker (·.unmarkBacklogged rule)) := ⟨rfl, rfl, rfl, rfl, rfl, rfl, rfl⟩
      obtain ⟨self, there'⟩ := there.noted notes (by simp)
      obtain ⟨self', vacant⟩ := there'.release
      refine ensures_modify ((Pact.desk rule).goesOn self self') (ensures_pure ⟨_, _, vacant, ?_⟩)
      rw [Holding.remains]
      split
      · next spent => exact .gone (lightens.retired.symm.trans spent.1)
      · next kept =>
        exact .tracked lightens.state lightens.retired lightens.outbox fun retired empty => kept ⟨retired, empty⟩
    · next some =>
      obtain ⟨self, vacant⟩ := there.leave
      refine ensures_modify self (ensures_pure ⟨_, _, vacant, ?_⟩)
      refine .tracked lightens.state lightens.retired lightens.outbox ?_
      exact fun _ empty => some (List.length_eq_zero_iff.mpr empty)

theorem Holding.Relieved.trans {h₁ h₂ h₃ : Option Holding} (first : Holding.Relieved h₁ h₂)
    (second : Holding.Relieved h₂ h₃) : Holding.Relieved h₁ h₃ := by
  cases first with
  | untracked => exact second
  | gone retired =>
    cases second
    exact .gone retired
  | tracked state retired outbox spent =>
    cases second with
    | gone retired' => exact .gone (retired.symm.trans retired')
    | tracked state' retired' outbox' spent' =>
      refine .tracked (state'.trans state) (retired'.trans retired) (fun d mem => ?_) spent'
      obtain ⟨d₁, mem₁, same₁⟩ := outbox' d mem
      obtain ⟨d₀, mem₀, same₀⟩ := outbox d₁ mem₁
      exact ⟨d₀, mem₀, same₀.trans same₁⟩

theorem Holding.Relieved.tagged {h h' : Option Holding} (relieved : Holding.Relieved h h')
    (tagged : Holding.Tagged rule h) : Holding.Tagged rule h' := by
  cases relieved with
  | untracked => exact tagged
  | gone => exact fun _ mem => absurd mem (by simp)
  | tracked state retired outbox =>
    rintro _ ⟨⟩ d mem
    obtain ⟨d₀, mem₀, same⟩ := outbox d mem
    exact same ▸ tagged _ rfl d₀ mem₀

/-- What waited for some rules was sent as far as it was due. -/
structure World.Relieved (w w' : World) : Prop where
  rest : w'.AtRest
  each : ∀ rule, w'.engine.tracker.held rule = w.engine.tracker.held rule ∨
    Holding.Relieved (w.engine.tracker.held rule) (w'.engine.tracker.held rule)
  rules : w'.engine.rules = w.engine.rules
  reconciled : w'.engine.reconciled = w.engine.reconciled
  ids : w'.ids = w.ids

theorem World.Relieved.trans {w₁ w₂ w₃ : World} (h : w₁.Relieved w₂) (h' : w₂.Relieved w₃) :
    w₁.Relieved w₃ := by
  refine ⟨h'.rest, fun rule => ?_, h'.rules.trans h.rules, h'.reconciled.trans h.reconciled, h'.ids.trans h.ids⟩
  rcases h.each rule with same | relieved
  · rw [← same]
    exact h'.each rule
  · rcases h'.each rule with same' | relieved'
    · rw [same']
      exact .inr relieved
    · exact .inr (relieved.trans relieved')

theorem ensures_retryRules [team.Monotone] {rules : List RuleId} {report : RetryReport} (rest : w.AtRest)
    (calm : ∀ {w w'}, outside w w' → w.Elsewhere w') :
    (retryRules rules report : Prog T _).Ensures (Pact.alone outside) team w fun _ w' => w.Relieved w' := by
  induction rules generalizing w report with
  | nil => exact ensures_pure ⟨rest, fun _ => .inl rfl, rfl, rfl, rfl⟩
  | cons rule others ih =>
    refine ((ensures_retryRule (rest.vacant rule) (rest.tagged rule)).alone calm).bind ?_
    rintro report' w₁ ⟨⟨h, past, vacant, relieved⟩, keeps, quiet⟩
    have frame : w.Keeps (· ∉ [rule]) w₁ := keeps.mono fun away same => away (List.mem_singleton.mpr same)
    have rest₁ : w₁.AtRest := rest.after frame fun rule' mem => by
      obtain rfl := List.mem_singleton.mp mem
      exact ⟨h, past, vacant, relieved.tagged (rest.tagged rule')⟩
    have first : w.Relieved w₁ := by
      refine ⟨rest₁, fun rule' => ?_, keeps.rules, keeps.reconciled, quiet.ids⟩
      by_cases same : rule' = rule
      · subst same
        exact .inr (vacant.held ▸ relieved)
      · exact .inl (keeps.held same)
    exact (ih rest₁).weaken fun _ w₂ later => first.trans later

theorem ensures_retry [team.Monotone] (rest : w.AtRest) (calm : ∀ {w w'}, outside w w' → w.Elsewhere w') :
    (retry : Prog T _).Ensures (Pact.alone outside) team w fun _ w' => w.Relieved w' :=
  ensures_read (ensures_retryRules rest calm)

end Sending

end ThresholdAlerts
