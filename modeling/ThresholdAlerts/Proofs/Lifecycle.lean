import ThresholdAlerts.Proofs.Alternation
import ThresholdAlerts.Proofs.Scenes
/-! The life of the alerts of a rule, however calls are interleaved. Main statement: the events that the
firing state of a rule produces open and close one alert after the other, the tracked state is open with
the alert that was opened last, and no slot that is open is ever dropped. -/
namespace ThresholdAlerts

open Function

def Happening.produced? : Happening → Option Event
  | .produced event => some event
  | _ => none

/-- The events that the firing state of a rule produced, the oldest first. -/
def Account.produced (a : Account) : List Event :=
  (a.past.filterMap Happening.produced?).reverse

def World.openings (w : World) : List AlertId :=
  Event.opens (w.journal.filterMap Happening.produced?)

def World.openAlert (w : World) (rule : RuleId) : Option AlertId :=
  (w.account rule).state.openAlertId

theorem World.Begins.openAlert {w : World} (h : w.Begins) (rule : RuleId) : w.openAlert rule = none := by
  rw [World.openAlert, h.account]
  rfl

/-! ### The account of a rule -/

variable {regime : Regime} {rule : RuleId} {m : Moment} {a a' : Account} {x x' : Option Work}

/-- The state of a rule is what the events say that it produced, alerts are open when they are opened, and
a rule whose slot is to go has no open alert. -/
structure Account.Coheres (start : Option AlertId) (a : Account) : Prop where
  alternates : Alternates start a.produced a.state.openAlertId
  live : ∀ alert, .opened alert ∈ a.produced → alert.isOpen = true
  closed : a.retired = true → a.state.openAlertId = none

theorem Account.produced_cons (a : Account) {h : Happening} (silent : h.produced? = none) :
    { a with past := h :: a.past }.produced = a.produced := by
  simp [produced, silent]

theorem Account.produced_changed (a : Account) (state : FiringState) (event : Option Event) :
    Account.produced { a with state, past := event.toList.map .produced ++ a.past } =
      a.produced ++ event.toList := by
  cases event <;> simp [produced, Happening.produced?]

theorem isOpen_eq_false {s : FiringState} : s.isOpen = false ↔ s.openAlertId = none := by
  rw [FiringState.isOpen, Option.isSome_eq_false_iff, Option.isNone_iff_eq_none]

/-- What a turn does to the state of a rule, as far as alerts are opened and closed. -/
inductive Account.Transits (regime : Regime) (rule : RuleId) (m : Moment) (a a' : Account) : Prop
  | rests (state : a'.state = a.state) (produced : a'.produced = a.produced)
      (retired : a'.retired = a.retired ∨ a'.retired = false)
  | changes (c : FiringState.Change) (serves : regime ≠ .recovering) (suits : c.Suits rule a.retired)
      (state : a'.state = (a.state.apply c).1)
      (produced : a'.produced = a.produced ++ (a.state.apply c).2.toList)
      (retired : a'.retired = a.retired)
  | retires (spent : a.state.isOpen = false ∨ regime ≠ .serving ∧ (regime = .recovering → ¬ m.known))
      (state : a'.state = a.state) (produced : a'.produced = a.produced)
  | seeds (recovers : regime ≠ .serving) (defined : regime = .recovering → m.known)
      (produced : a'.produced = a.produced) (kept : a'.retired = false)
  | forgets (retired : a.retired = true) (closed : a'.state.openAlertId = none)
      (produced : a'.produced = a.produced) (kept : a'.retired = false)

theorem Turn.transits (turn : Turn regime rule m a x a' x') : a.Transits regime rule m a' := by
  cases turn with
  | taken revives => exact .rests rfl rfl revives
  | changed c serves suits =>
      exact .changes c serves suits rfl (a.produced_changed (a.state.apply c).1 (a.state.apply c).2) rfl
  | retire spent => exact .retires spent rfl rfl
  | seeded alertId recovers defined kept => exact .seeds recovers defined rfl kept
  | forgotten retired => exact .forgets retired rfl rfl rfl
  | _ => exact .rests rfl (by simp [Account.produced, List.filterMap_cons, Happening.produced?]) (.inl rfl)

/-- What a turn of the service does to the state of a rule: it leaves it open or closed as it is, or it
opens or closes an alert and produces the event that says so. -/
theorem Turn.cases_state (turn : Turn .serving rule m a x a' x')
    (closed : a.retired = true → a.state.openAlertId = none) :
    (a'.produced = a.produced ∧ a'.state.openAlertId = a.state.openAlertId ∧
      (a'.retired = true → a'.state.openAlertId = none)) ∨
    (∃ alert, a'.produced = a.produced ++ [.opened alert] ∧ alert.isOpen = true ∧
      a.state.openAlertId = none ∧ a'.state.openAlertId = some alert.id ∧ a'.retired = false) ∨
    ∃ id time reason, a'.produced = a.produced ++ [.resolved id a.state.ruleId time reason] ∧
      a.state.openAlertId = some id ∧ a'.state.openAlertId = none := by
  cases turn.transits with
  | rests state produced retired =>
      refine .inl ⟨produced, by rw [state], fun now => ?_⟩
      rw [state]
      rcases retired with same | revived
      · exact closed (same ▸ now)
      · exact absurd (revived.symm.trans now) Bool.false_ne_true
  | changes c serves suits state produced retired =>
      rw [state, produced, retired]
      have outcome := a.state.apply_outcome c
      generalize (a.state.apply c).1 = state at outcome
      generalize (a.state.apply c).2 = event at outcome
      cases outcome with
      | still same =>
          refine .inl ⟨by simp, same, fun retired => same.trans (closed retired)⟩
      | @closes id reason time was clear =>
          exact .inr (.inr ⟨id, time, reason, by simp, was, clear⟩)
      | @opens fresh r breached value time made was now =>
          subst made
          exact .inr (.inl ⟨.ofRule fresh r value time, by simp, rfl, was, now, suits.2⟩)
  | retires spent state produced =>
      have shut : a.state.openAlertId = none :=
        isOpen_eq_false.mp (spent.resolve_right fun mixes => mixes.1 rfl)
      rw [state]
      exact .inl ⟨produced, rfl, fun _ => shut⟩
  | seeds recovers => exact absurd rfl recovers
  | forgets retired shut produced kept =>
      exact .inl ⟨produced, shut.trans (closed retired).symm, fun _ => shut⟩

/-- The state of a rule goes on to be what its events say. -/
theorem Turn.coheres {start : Option AlertId} (turn : Turn .serving rule m a x a' x')
    (h : a.Coheres start) : a'.Coheres start := by
  rcases turn.cases_state h.closed with ⟨same, state, closed⟩ | ⟨alert, opened, live, was, now, kept⟩ |
    ⟨id, time, reason, resolved, was, now⟩
  · refine ⟨?_, same ▸ h.live, closed⟩
    rw [same, state]
    exact h.alternates
  · refine ⟨?_, fun alert' mem => ?_, fun retired => absurd (kept.symm.trans retired) Bool.false_ne_true⟩
    · rw [opened, now]
      exact .opened (was ▸ h.alternates)
    · rw [opened, List.mem_append, List.mem_singleton] at mem
      rcases mem with mem | new
      · exact h.live alert' mem
      · obtain rfl := Event.opened.inj new
        exact live
  · refine ⟨?_, fun alert mem => h.live alert ?_, fun _ => now⟩
    · rw [resolved, now]
      exact .resolved (was ▸ h.alternates)
    · rw [resolved, List.mem_append] at mem
      exact mem.resolve_right (by simp)

/-! ### Fresh ids -/

variable {w w' : World} {id : SlotId} {work : Work}

/-- No alert is opened, and no id is used up. -/
structure World.Quiet (w w' : World) : Prop where
  ids : w'.ids = w.ids
  openings : w'.openings = w.openings

structure World.Names (w w' : World) : Prop where
  ids : w'.ids = w.ids.advance
  openings : w'.openings = w.ids.next :: w.openings

theorem World.quiet_abandon (w : World) (event : Event) (attempts : Nat) (error : SinkError) :
    w.Quiet (w.abandon event attempts error) := by
  constructor <;> simp only [World.abandon, World.readCalendar, World.count, World.note,
    World.onEngine, World.openings, List.filterMap_cons, Happening.produced?]

theorem World.Quiet.onTracker (h : w.Quiet w') (f : Tracker → Tracker) : w.Quiet (w'.onTracker f) :=
  ⟨h.ids, h.openings⟩

theorem World.openings_change (w : World) (id : SlotId) (c : FiringState.Change) :
    (w.change id c).1.openings =
      Event.opens ((w.slot id).state.apply c).2.toList ++ w.openings := by
  rw [World.openings, (World.alters_change c).journal, List.filterMap_append, Event.opens_append,
    World.openings]
  cases ((w.slot id).state.apply c).2 <;> rfl

theorem World.ids_change (w : World) (id : SlotId) (c : FiringState.Change) :
    (w.change id c).1.ids = w.ids := by
  simp only [World.change]
  split <;> rfl

theorem World.quiet_change {c : FiringState.Change} (suits : c.Suits rule true) :
    w.Quiet (w.change id c).1 := by
  refine ⟨World.ids_change w id c, ?_⟩
  rw [World.openings_change]
  have outcome := (w.slot id).state.apply_outcome c
  generalize ((w.slot id).state.apply c).1 = state at outcome
  generalize ((w.slot id).state.apply c).2 = event at outcome
  cases outcome with
  | still same => rfl
  | closes was clear => rfl
  | opens made was now =>
      rw [made] at suits
      exact absurd suits.2 (by simp)

/-- Judging a sample uses up an id exactly if it opens an alert. -/
theorem World.names_transition (w : World) (id : SlotId) (r : Rule) (breached : Bool) (value : Float)
    (time : Timestamp) : w.Quiet (w.transition id r breached value time).1 ∨
      w.Names (w.transition id r breached value time).1 := by
  have openings := w.openings_change id (.transition w.ids.next r breached value time)
  have ids := w.ids_change id (.transition w.ids.next r breached value time)
  have snd := w.change_snd id (.transition w.ids.next r breached value time)
  have outcome := (w.slot id).state.apply_outcome (.transition w.ids.next r breached value time)
  rw [World.transition]
  generalize w.change id (.transition w.ids.next r breached value time) = result at openings ids snd
  obtain ⟨w', event⟩ := result
  dsimp only at openings ids snd ⊢
  rw [← snd] at openings outcome
  generalize ((w.slot id).state.apply (.transition w.ids.next r breached value time)).1 = state
    at outcome
  cases outcome with
  | still same => exact .inl ⟨ids, openings⟩
  | closes was clear => exact .inl ⟨ids, openings⟩
  | opens made was now =>
      rw [FiringState.Change.transition.injEq] at made
      obtain ⟨rfl, rfl, rfl, rfl, rfl⟩ := made
      refine .inr ⟨?_, openings⟩
      rw [← ids]

theorem Edit.names (edit : Edit regime rule id w work w' x) : w.Quiet w' ∨ w.Names w' := by
  cases edit with
  | change c serves suits => exact .inl (World.quiet_change suits)
  | transition breached value time => exact w.names_transition id _ breached value time
  | @queueBehind event todo =>
      simp only [World.queueBehind]
      generalize (w.slot id).outbox.enqueue event w.clock = put
      obtain ⟨outbox, result⟩ := put
      cases result with
      | queued => exact .inl ⟨rfl, rfl⟩
      | collapsed opening => exact .inl ⟨rfl, rfl⟩
      | overflow event =>
          obtain ⟨ids, openings⟩ := (w.onTracker (·.setOutbox id outbox)).quiet_abandon event 0
            (.backlogFull outbox.length)
          have quiet : w.Quiet ((w.onTracker (·.setOutbox id outbox)).abandon event 0
              (.backlogFull outbox.length)) := ⟨ids, openings⟩
          exact .inl (quiet.onTracker _)
  | @firstFailure event error todo =>
      rw [World.firstFailure]
      split
      · exact .inl ⟨rfl, rfl⟩
      · have quiet := (w.count .sinkFailure).quiet_abandon event 1 error
        exact .inl ⟨quiet.ids, quiet.openings⟩
  | delivered =>
      rw [World.delivered]
      split <;> exact .inl ⟨rfl, rfl⟩
  | @failedAgain front rest error =>
      simp only [World.failedAgain]
      split
      · exact .inl ⟨rfl, rfl⟩
      · refine .inl ⟨(World.quiet_abandon _ _ _ error).ids, (World.quiet_abandon _ _ _ error).openings⟩
  | _ => exact .inl ⟨rfl, rfl⟩

theorem Happens.names (happens : Happens regime rule id w x w' x') : w.Quiet w' ∨ w.Names w' := by
  cases happens with
  | edit edit => exact edit.names
  | _ => exact .inl ⟨rfl, rfl⟩

/-! ### Every interleaving -/

variable {holders : RuleId → Option Work} {start : RuleId → Option AlertId} {value : Nat → AlertId}

/-- The states are what the events say, and the alerts were opened under ids of the supply, each under
one of its own. -/
structure World.Lives (start : RuleId → Option AlertId) (value : Nat → AlertId) (w : World) : Prop where
  coheres : ∀ rule, (w.account rule).Coheres (start rule)
  supply : w.ids.value = value
  used : ∀ id ∈ w.openings, ∃ n < w.ids.taken, value n = id
  once : w.openings.Nodup

theorem World.Lives.of_same (lives : w.Lives start value)
    (account : ∀ rule, w'.account rule = w.account rule) (journal : w'.journal = w.journal)
    (ids : w'.ids = w.ids) : w'.Lives start value := by
  obtain ⟨coheres, supply, used, once⟩ := lives
  have openings : w'.openings = w.openings := by rw [World.openings, journal, World.openings]
  refine ⟨fun rule => account rule ▸ coheres rule, ids ▸ supply, ?_, openings ▸ once⟩
  rw [openings, ids]
  exact used

theorem kept_coheres (start : RuleId → Option AlertId) :
    Kept .serving fun w _ => ∀ rule, (w.account rule).Coheres (start rule) :=
  kept_accounts (P := fun rule a _ => a.Coheres (start rule)) fun turn _ _ h => turn.coheres h

theorem kept_supply : Kept regime fun w _ => w.ids.value = value where
  still still supply := by
    rw [still.aside.ids]
    exact supply
  happens _ happens supply := by
    rcases happens.names with ⟨ids, -⟩ | ⟨ids, -⟩
    · rw [ids]
      exact supply
    · rw [ids]
      exact supply

theorem kept_lives (distinct : Injective value) :
    Kept .serving fun w _ => w.Lives start value where
  still still lives := lives.of_same still.account still.aside.journal still.aside.ids
  happens := fun {w w' holders rule id x} attended happens lives => by
    obtain ⟨coheres, supply, used, once⟩ := lives
    have coheres' : ∀ rule, (w'.account rule).Coheres (start rule) :=
      (kept_coheres start).happens attended happens coheres
    have supply' : w'.ids.value = value := kept_supply.happens attended happens supply
    rcases happens.names with ⟨ids, openings⟩ | ⟨ids, openings⟩
    · refine ⟨coheres', supply', ?_, openings ▸ once⟩
      rw [openings, ids]
      exact used
    · have next : w.ids.next = value w.ids.taken := by rw [Supply.next, supply]
      refine ⟨coheres', supply', fun id mem => ?_, ?_⟩
      · rw [ids]
        rw [openings, List.mem_cons] at mem
        rcases mem with rfl | mem
        · exact ⟨w.ids.taken, Nat.lt_succ_self _, next.symm⟩
        · obtain ⟨n, before, same⟩ := used id mem
          exact ⟨n, Nat.lt_succ_of_lt before, same⟩
      · rw [openings, List.nodup_cons]
        refine ⟨fun mem => ?_, once⟩
        obtain ⟨n, before, same⟩ := used _ mem
        exact Nat.ne_of_lt before (distinct (same.trans next))

/-- The open alert `alert` of a rule is still tracked by slot `id`, or it was closed since `w₀`. -/
def World.Stays (w₀ : World) (rule : RuleId) (id : SlotId) (alert : AlertId) (w : World) : Prop :=
  ∃ later, (w.account rule).produced = (w₀.account rule).produced ++ later ∧
    (w.engine.tracker.find? rule = some id ∧ w.openAlert rule = some alert ∨
      ∃ time reason, .resolved alert rule time reason ∈ later)

theorem kept_stays {w₀ : World} {rule : RuleId} {id : SlotId} {alert : AlertId}
    (distinct : Injective value) :
    Kept .serving fun w _ => w.Lives start value ∧ World.Stays w₀ rule id alert w where
  still := fun {w w' holders} still both => by
    obtain ⟨lives, later, same, fate⟩ := both
    refine ⟨lives.of_same still.account still.aside.journal still.aside.ids, later, ?_, ?_⟩
    · rw [still.account, same]
    · rw [World.openAlert, still.account]
      exact fate.imp_left fun ⟨found, opened⟩ => ⟨still.stays found, opened⟩
  happens := fun {w w' holders rule' id' x} attended happens both => by
    obtain ⟨lives, later, same, fate⟩ := both
    have advances := attended.advances happens
    refine ⟨(kept_lives distinct).happens attended happens lives, ?_⟩
    by_cases here : rule = rule'
    · subst here
      have closed := (lives.coheres rule).closed
      -- The turn leaves the alert open, or what it produces closes the alert.
      have grows : ∃ more, (w'.account rule).produced = (w.account rule).produced ++ more ∧
          (w.openAlert rule = some alert → w'.openAlert rule = some alert ∨
            ∃ time reason, .resolved alert rule time reason ∈ more) := by
        rcases advances.turn.cases_state closed with ⟨silent, state, -⟩ | ⟨a, opened, -, was, -⟩ |
          ⟨a, time, reason, resolved, was, -⟩
        · exact ⟨[], by simp [silent], fun opened => .inl (state.trans opened)⟩
        · exact ⟨_, opened, fun open_ => absurd (was.symm.trans open_) (by simp)⟩
        · refine ⟨_, resolved, fun open_ => .inr ⟨time, reason, ?_⟩⟩
          obtain rfl := Option.some.inj (was.symm.trans open_)
          rw [attended.coherent.account_ruleId]
          exact List.mem_singleton_self _
      obtain ⟨more, grown, kept⟩ := grows
      refine ⟨later ++ more, by rw [grown, same, List.append_assoc], ?_⟩
      rcases fate with ⟨found, opened⟩ | ⟨time, reason, mem⟩
      · rcases kept opened with still | ⟨time, reason, mem⟩
        · have kept : (w.account rule).retired = false := by
            cases retired : (w.account rule).retired with
            | false => rfl
            | true => exact absurd ((closed retired).symm.trans opened) (by simp)
          exact .inl ⟨advances.stays found (.inr kept), still⟩
        · exact .inr ⟨time, reason, List.mem_append_right _ mem⟩
      · exact .inr ⟨time, reason, List.mem_append_left _ mem⟩
    · refine ⟨later, by rw [advances.others here, same], ?_⟩
      rw [World.openAlert, advances.others here]
      exact fate.imp_left fun ⟨found, opened⟩ => ⟨advances.stays found (.inl here), opened⟩

/-! ### Recovery -/

/-- During a recovery nothing is produced, and rules are opened only if they are defined. -/
structure World.Rebuilds (w : World) : Prop where
  silent : ∀ rule, (w.account rule).produced = []
  closed : ∀ rule, (w.account rule).retired = true → w.openAlert rule = none
  defined : ∀ rule, w.openAlert rule ≠ none → ∃ r, w.rule? rule = some r
  blank : w.engine.rules.snapshot.generation = 0 → ∀ rule, w.openAlert rule = none

theorem Turn.rebuilds (turn : Turn .recovering rule m a x a' x') (silent : a.produced = [])
    (closed : a.retired = true → a.state.openAlertId = none)
    (defined : a.state.openAlertId ≠ none → m.known) :
    a'.produced = [] ∧ (a'.retired = true → a'.state.openAlertId = none) ∧
      (a'.state.openAlertId ≠ none → m.known) := by
  cases turn.transits with
  | rests state produced retired =>
      rw [state]
      refine ⟨produced.trans silent, fun now => ?_, defined⟩
      rcases retired with same | revived
      · exact closed (same ▸ now)
      · exact absurd (revived.symm.trans now) Bool.false_ne_true
  | changes c serves => exact absurd rfl serves
  | retires spent state produced =>
      rw [state]
      refine ⟨produced.trans silent, fun _ => ?_, defined⟩
      rcases spent with shut | ⟨-, unknown⟩
      · exact isOpen_eq_false.mp shut
      · exact Classical.not_not.mp fun opened => unknown rfl (defined opened)
  | seeds recovers defined' produced kept =>
      exact ⟨produced.trans silent, fun now => absurd (kept.symm.trans now) Bool.false_ne_true,
        fun _ => defined' rfl⟩
  | forgets retired shut produced kept =>
      exact ⟨produced.trans silent, fun _ => shut, fun opened => absurd shut opened⟩

theorem kept_rebuilds : Kept .recovering fun w _ => w.Rebuilds where
  still := fun {w w' holders} still rebuilds => by
    obtain ⟨silent, closed, defined, blank⟩ := rebuilds
    have opened (rule : RuleId) : w'.openAlert rule = w.openAlert rule := by
      rw [World.openAlert, still.account, World.openAlert]
    refine ⟨fun rule => still.account rule ▸ silent rule, fun rule => ?_, fun rule => ?_, fun gen rule => ?_⟩
    · rw [still.account, opened]
      exact closed rule
    · rw [opened]
      intro open_
      rcases still.reloads.once rfl with gen | same
      · exact absurd (blank gen rule) open_
      · rw [World.rule?, same]
        exact defined rule open_
    · rw [opened]
      rcases still.reloads.once rfl with gen' | same
      · exact blank gen' rule
      · exact blank (same ▸ gen) rule
  happens := fun {w w' holders rule id x} attended happens rebuilds => by
    obtain ⟨silent, closed, defined, blank⟩ := rebuilds
    have advances := attended.advances happens
    have rule? (rule' : RuleId) : w'.rule? rule' = w.rule? rule' := by
      rw [World.rule?, advances.rules, World.rule?]
    obtain ⟨silent', closed', defined'⟩ := advances.turn.rebuilds (silent rule) (closed rule) (defined rule)
    have known : ∀ rule', w'.openAlert rule' ≠ none → ∃ r, w'.rule? rule' = some r := by
      simp only [rule?]
      exact advances.each_account (P := fun rule a => a.state.openAlertId ≠ none → ∃ r, w.rule? rule = some r)
        defined' defined
    refine ⟨advances.each_account (P := fun _ a => a.produced = []) silent' silent,
      advances.each_account (P := fun _ a => a.retired = true → a.state.openAlertId = none) closed' closed, known,
      fun gen rule' => ?_⟩
    refine Classical.not_not.mp fun opened => ?_
    obtain ⟨r, got⟩ := known rule' opened
    have none := attended.sound.blank (advances.rules ▸ gen) rule'
    rw [rule?] at got
    exact absurd (got.symm.trans none) (by simp)

/-- A world in which a single recovery came to its end, on a new engine. -/
def World.Recovered (w : World) : Prop :=
  ∃ w₀ reply, w₀.Begins ∧
    Scene.Run (Call.Admitted .recovering) World.Elsewhere { world := w₀ }
      { world := w, calls := [.finished reply] }

theorem bears_rebuilds : Bears World.Elsewhere fun w _ => w.Rebuilds where
  elsewhere change := change
  kept := fun {w w' holders} change rebuilds => by
    obtain ⟨silent, closed, defined, blank⟩ := rebuilds
    have engine := change.engine.1
    have opened (rule : RuleId) : w'.openAlert rule = w.openAlert rule := by
      rw [World.openAlert, change.account, World.openAlert]
    refine ⟨fun rule => change.account rule ▸ silent rule, fun rule => ?_, fun rule => ?_, fun gen rule => ?_⟩
    · rw [change.account, opened]
      exact closed rule
    · rw [opened, World.rule?, engine]
      exact defined rule
    · rw [opened]
      exact blank (engine ▸ gen) rule

theorem World.Recovered.sound (h : w.Recovered) :
    w.Rebuilds ∧ Scene.Sound .serving (fun w _ => w.Rebuilds) { world := w } (fun _ => .free)
      fun _ => none := by
  obtain ⟨w₀, reply, begins, run⟩ := h
  have rebuilds : w₀.Rebuilds := by
    refine ⟨fun rule => ?_, fun rule => ?_, fun rule => ?_, fun _ rule => ?_⟩ <;>
      simp [World.openAlert, begins.account, Account.produced, FiringState.initial,
        FiringState.openAlertId]
  obtain ⟨st, holders, sound⟩ :=
    (Scene.sound_begins begins rebuilds).run kept_rebuilds bears_rebuilds run fun _ => Nat.le_refl 1
  have finished : Scene.AllFinished { world := w, calls := [.finished reply] } := by
    intro c mem
    exact ⟨reply, List.mem_singleton.mp mem⟩
  exact ⟨sound.property, sound.again finished (by simp) sound.property⟩

/-! ### One open alert per rule -/

theorem World.mem_produced {event : Event} : event ∈ (w.account rule).produced ↔
    event ∈ w.journal.filterMap Happening.produced? ∧ event.ruleId = rule := by
  rw [Account.produced, List.mem_reverse, List.mem_filterMap, List.mem_filterMap]
  constructor
  · rintro ⟨h, there, produced⟩
    obtain ⟨there, own⟩ := List.mem_filter.mp there
    refine ⟨⟨h, there, produced⟩, ?_⟩
    cases h with
    | produced event' =>
        obtain rfl := Option.some.inj produced
        exact of_decide_eq_true own
    | _ => exact absurd produced (by simp [Happening.produced?])
  · rintro ⟨⟨h, there, produced⟩, own⟩
    refine ⟨h, List.mem_filter.mpr ⟨there, decide_eq_true ?_⟩, produced⟩
    cases h with
    | produced event' =>
        obtain rfl := Option.some.inj produced
        exact own
    | _ => exact absurd produced (by simp [Happening.produced?])

theorem World.openings_of_produced {id : AlertId}
    (mem : id ∈ Event.opens (w.account rule).produced) : id ∈ w.openings := by
  obtain ⟨event, there, opens⟩ := Event.mem_opens.mp mem
  exact Event.mem_opens.mpr ⟨event, (World.mem_produced.mp there).1, opens⟩

theorem World.nodup_of_openings (once : w.openings.Nodup) :
    (Event.opens (w.account rule).produced).Nodup := by
  rw [Account.produced, Event.opens, List.filterMap_reverse, List.nodup_reverse]
  refine once.sublist ?_
  exact (List.filter_sublist.filterMap _).filterMap _

theorem inj_of_nodup_filterMap {α β : Type} {f : α → Option β} {l : List α} (once : (l.filterMap f).Nodup)
    {a a' : α} {b : β} (mem : a ∈ l) (mem' : a' ∈ l) (here : f a = some b) (here' : f a' = some b) :
    a = a' := by
  induction l with
  | nil => exact absurd mem (by simp)
  | cons first l ih =>
      rw [List.mem_cons] at mem mem'
      rcases mem with rfl | mem <;> rcases mem' with rfl | mem'
      · rfl
      · rw [List.filterMap_cons, here, List.nodup_cons] at once
        exact absurd (List.mem_filterMap.mpr ⟨a', mem', here'⟩) once.1
      · rw [List.filterMap_cons, here', List.nodup_cons] at once
        exact absurd (List.mem_filterMap.mpr ⟨a, mem, here⟩) once.1
      · refine ih (once.sublist ?_) mem mem'
        exact (List.sublist_cons_self first l).filterMap f

theorem World.opener_unique (once : w.openings.Nodup) {rule rule' : RuleId} {id : AlertId}
    (opened : id ∈ Event.opens (w.account rule).produced)
    (opened' : id ∈ Event.opens (w.account rule').produced) : rule = rule' := by
  obtain ⟨event, mem, opens⟩ := Event.mem_opens.mp opened
  obtain ⟨event', mem', opens'⟩ := Event.mem_opens.mp opened'
  obtain ⟨there, named⟩ := World.mem_produced.mp mem
  obtain ⟨there', named'⟩ := World.mem_produced.mp mem'
  obtain rfl := inj_of_nodup_filterMap once there there' opens opens'
  exact named.symm.trans named'

theorem World.lives_of_silent (silent : ∀ rule, (w.account rule).produced = [])
    (closed : ∀ rule, (w.account rule).retired = true → w.openAlert rule = none) :
    w.Lives w.openAlert w.ids.value := by
  have none : w.openings = [] := by
    rw [List.eq_nil_iff_forall_not_mem]
    intro id mem
    obtain ⟨event, produced, opens⟩ := Event.mem_opens.mp mem
    have own : event ∈ (w.account event.ruleId).produced := World.mem_produced.mpr ⟨produced, rfl⟩
    rw [silent] at own
    exact absurd own (by simp)
  refine ⟨fun rule => ⟨?_, by simp [silent], closed rule⟩, rfl, ?_, ?_⟩
  · rw [silent]
    exact .nothing
  · rw [none]
    simp
  · rw [none]
    exact .nil

theorem World.Begins.lives {w : World} (h : w.Begins) : w.Lives w.openAlert w.ids.value := by
  refine World.lives_of_silent (fun rule => ?_) fun rule => ?_ <;>
    simp [World.openAlert, h.account, Account.produced]

theorem bears_supply : Bears World.Elsewhere fun w _ => w.ids.value = value where
  elsewhere change := change
  kept change supply := change.engine.2.2.2 ▸ supply

theorem bears_lives : Bears World.Elsewhere fun w _ => w.Lives start value where
  elsewhere change := change
  kept change lives :=
    lives.of_same change.account change.engine.2.2.1 change.engine.2.2.2

theorem bears_stays {w₀ : World} {rule : RuleId} {id : SlotId} {alert : AlertId} :
    Bears World.Elsewhere fun w _ => w.Lives start value ∧ World.Stays w₀ rule id alert w where
  elsewhere change := change
  kept := fun {w w' holders} change both => by
    refine ⟨both.1.of_same change.account change.engine.2.2.1 change.engine.2.2.2, ?_⟩
    obtain ⟨later, same, fate⟩ := both.2
    refine ⟨later, ?_, ?_⟩
    · rw [change.account, same]
    · rw [World.openAlert, change.account, change.engine.1]
      exact fate

/-- The events of a rule alternate; the state that is tracked for it is what they say, and an open slot
stays until its alert is closed. -/
structure Scene.OneAtATime (start : Option AlertId) (s : Scene) (rule : RuleId) : Prop where
  alternates : Alternates start (s.world.account rule).produced (s.world.openAlert rule)
  tracked : ∀ id, s.world.openAlert rule = some id ↔
    (∃ alert, (s.world.account rule).produced.getLast? = some (.opened alert) ∧ alert.id = id) ∨
      (s.world.account rule).produced = [] ∧ start = some id
  openedOnce : (Event.opens (s.world.account rule).produced).Nodup
  closedOnce : (Event.closes (s.world.account rule).produced).Nodup
  stays : ∀ {id alert s'}, s.world.engine.tracker.find? rule = some id →
    s.world.openAlert rule = some alert →
    Scene.Run (Call.Admitted .serving) World.Elsewhere s s' →
    World.Stays s.world rule id alert s'.world

/-- On a new engine, or after a recovery, and however calls, answers and changes from outside are
interleaved: each rule has one open alert at a time. -/
theorem Scene.one_open_alert_per_rule {w : World} {s : Scene} (starts : w.Begins ∨ w.Recovered)
    (distinct : Injective w.ids.value)
    (fresh : ∀ rule id, w.openAlert rule = some id → ∀ n, w.ids.value n ≠ id)
    (run : Scene.Run (Call.Admitted .serving) World.Elsewhere { world := w } s) :
    s.world.openings.Nodup ∧ ∀ rule, s.OneAtATime (w.openAlert rule) rule := by
  have lives : w.Lives w.openAlert w.ids.value := by
    rcases starts with begins | recovered
    · exact begins.lives
    · obtain ⟨rebuilds, -⟩ := recovered.sound
      exact World.lives_of_silent rebuilds.silent rebuilds.closed
  have sound : Scene.Sound .serving (fun w' _ => w'.Lives w.openAlert w.ids.value) { world := w }
      (fun _ => .free) fun _ => none := by
    rcases starts with begins | recovered
    · exact Scene.sound_begins begins lives
    · exact recovered.sound.2.imp lives
  obtain ⟨st, holders, sound⟩ := sound.run (kept_lives distinct) bears_lives run (by simp)
  obtain ⟨coheres, supply, used, once⟩ := sound.property
  refine ⟨once, fun rule => ?_⟩
  have alternates := (coheres rule).alternates
  have nodup : (Event.opens (s.world.account rule).produced).Nodup := World.nodup_of_openings once
  refine ⟨alternates, alternates.now_iff, nodup, (alternates.closes_nodup nodup ?_).1, ?_⟩
  · intro id first mem
    obtain ⟨n, -, same⟩ := used id (World.openings_of_produced mem)
    exact fresh rule id first n same
  · intro id alert s' found opened run'
    have here : World.Stays s.world rule id alert s.world :=
      ⟨[], (List.append_nil _).symm, .inl ⟨found, opened⟩⟩
    obtain ⟨st', holders', sound'⟩ := (sound.imp ⟨sound.property, here⟩).run (kept_stays distinct)
      bears_stays run' (by simp)
    exact sound'.property.2

theorem World.recovered_of_run {w : World} {s : Scene} (begins : w.Begins)
    (run : Scene.Run (Call.Admitted .recovering) World.Elsewhere { world := w } s) (finished : s.AllFinished)
    (single : s.calls.length = 1) : s.world.Recovered ∧ s.world.ids.value = w.ids.value := by
  obtain ⟨c, calls⟩ := List.length_eq_one_iff.mp single
  obtain ⟨reply, rfl⟩ := finished c (calls ▸ List.mem_singleton_self c)
  obtain ⟨st, holders, sound⟩ := (Scene.sound_begins begins rfl).run kept_supply bears_supply run
    fun _ => Nat.le_of_eq single
  refine ⟨⟨w, reply, begins, ?_⟩, sound.property⟩
  rw [← calls]
  exact run

/-- A world whose storage holds an open alert from before. -/
def World.inherited : World :=
  .watched { workers := 1 } { store := .insert {} (.ofRule "x" .highLoad 95 default) }

/-- On a new engine the load rises. After a recovery, which finds an open alert, the load falls. -/
theorem Scene.one_open_alert_on_high_load :
    let w : World := .watched { workers := 1 } {}
    let s := (Scene.make { world := w } .refresh).make (.sample "load" 95 default)
    let w' := (Scene.make { world := .inherited } .recover).world
    let s' := Scene.make { world := w' } (.sample "load" 50 default)
    (s.world.openAlert "high-load" = some "" ∧ s.world.openings.Nodup ∧
        ∀ rule, s.OneAtATime (w.openAlert rule) rule) ∧
      w'.openAlert "high-load" = some "x" ∧
        Event.closes (s'.world.account "high-load").produced = ["x"] ∧
        ∀ rule, s'.OneAtATime (w'.openAlert rule) rule := by
  intro w s w' s'
  have begins : w.Begins := World.begins_watched _ _
  have run : Scene.Run (Call.Admitted .serving) World.Elsewhere { world := w } s :=
    (Scene.run_make _ nofun).trans (Scene.run_make _ nofun)
  obtain ⟨recovered, ids⟩ := World.recovered_of_run (World.begins_watched _ _)
    (Scene.run_make { world := .inherited } (c := .recover) nofun)
    (Scene.allFinished_of_results (by decide +kernel)) (by decide +kernel)
  have open_ : w'.openAlert "high-load" = some "x" := by decide +kernel
  have fresh (rule : RuleId) (id : AlertId) (opened : w'.openAlert rule = some id) (n : Nat) :
      w'.ids.value n ≠ id := by
    have tracked : rule ∈ w'.engine.tracker.ruleIds := Classical.not_not.mp fun absent => by
      rw [World.openAlert, (World.account_of_untracked absent).2] at opened
      exact absurd opened (by simp)
    obtain rfl : rule = "high-load" := by
      rw [show w'.engine.tracker.ruleIds = ["high-load"] by decide +kernel] at tracked
      exact List.mem_singleton.mp tracked
    obtain rfl := Option.some.inj (open_.symm.trans opened)
    rw [ids]
    intro same
    have letters : List.replicate n 'a' = ['x'] := String.ofList_injective same
    have mem : 'x' ∈ List.replicate n 'a' := letters ▸ List.mem_singleton_self _
    exact absurd (List.eq_of_mem_replicate mem) (by decide)
  have run' : Scene.Run (Call.Admitted .serving) World.Elsewhere { world := w' } s' :=
    Scene.run_make _ nofun
  refine ⟨⟨by decide +kernel, ?_⟩, open_, by decide +kernel, ?_⟩
  · exact Scene.one_open_alert_per_rule (.inl begins) (World.injective_watched _ _)
      (fun rule id opened => absurd opened (by simp [begins.openAlert])) run
  · have distinct : Injective w'.ids.value := ids ▸ World.injective_watched _ _
    exact (Scene.one_open_alert_per_rule (.inr recovered) distinct fresh run').2

end ThresholdAlerts
