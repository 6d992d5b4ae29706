import Mathlib.Data.List.DropRight
import ThresholdAlerts.Proofs.Admissions
import ThresholdAlerts.Proofs.Upkeep
/-! The tally of a rule in a calm world. Of the values of its metric only the unbroken run of breaches at their end
counts, and the store holds an open alert just if that run is as long as the rule asks for. Main statement: a
sample that is evaluated is added to the tally, whatever is done for other rules in the meantime. -/
namespace ThresholdAlerts

open Prog

/-- Whether a value breaches a rule. None breaches one that cannot be evaluated. -/
def Rule.isBreach (r : Rule) (value : Float) : Bool :=
  match r.breaches value with
  | .ok breached => breached
  | .error _ => false

/-- The unbroken run of breaches at the end of some values. -/
def Rule.run (r : Rule) (values : List Float) : List Float :=
  values.rtakeWhile r.isBreach

/-- The value in a run of breaches that opens an alert. -/
def Rule.trigger? (r : Rule) (values : List Float) : Option Float :=
  (r.run values)[r.needed - 1]?

/-- The streak of the rule is the run of breaches, and the store holds its open alert. -/
structure World.Tallied (r : Rule) (values : List Float) (w : World) : Prop where
  shows : FiringState.Shows (w.firing r.id).phase (r.run values).length r.needed
  stored : ∀ {id a}, w.sink.store.get? id = some a → a.ruleId = r.id → a.isOpen = true →
    (w.firing r.id).openAlertId = some id ∧
      ∃ value time, r.trigger? values = some value ∧ a = Alert.ofRule id r value time
  found : ∀ {id}, (w.firing r.id).openAlertId = some id →
    ∃ a, w.sink.store.get? id = some a ∧ a.ruleId = r.id ∧ a.isOpen = true

/-- The last value brought about an event that is still to be delivered. -/
inductive World.Owes (r : Rule) (values : List Float) (w : World) : Event → Prop
  | opened {fresh value time} (shows : FiringState.Shows (w.firing r.id).phase (r.run values).length r.needed)
      (opens : (w.firing r.id).openAlertId = some fresh) (reached : r.trigger? values = some value)
      (absent : ¬ w.sink.store.Holds fresh)
      (none : ∀ {id a}, w.sink.store.get? id = some a → a.ruleId = r.id → a.isOpen = false) :
      Owes r values w (.opened (Alert.ofRule fresh r value time))
  | resolved {id time reason} (shows : FiringState.Shows (w.firing r.id).phase (r.run values).length r.needed)
      (shut : (w.firing r.id).openAlertId = none)
      (there : ∃ a, w.sink.store.get? id = some a ∧ a.ruleId = r.id ∧ a.isOpen = true)
      (only : ∀ {id' a}, w.sink.store.get? id' = some a → a.ruleId = r.id → a.isOpen = true → id' = id) :
      Owes r values w (.resolved id r.id time reason)

section Runs

variable {r : Rule} {values : List Float} {value : Float}

namespace Rule

theorem run_breach (breach : r.isBreach value = true) : r.run (values ++ [value]) = r.run values ++ [value] :=
  List.rtakeWhile_concat_pos _ _ _ breach

theorem run_quiet (quiet : r.isBreach value = false) : r.run (values ++ [value]) = [] :=
  List.rtakeWhile_concat_neg _ _ _ (by simp [quiet])

theorem isBreach_of_ok {breached : Bool} (judged : r.breaches value = .ok breached) : r.isBreach value = breached := by
  rw [isBreach, judged]

theorem breaches_of_valid (valid : r.validate = .ok ()) (value : Float) :
    r.breaches value = Condition.evaluate r.operator r.threshold value := by
  rw [breaches, valid]
  rfl

theorem breaches_of_invalid {e : ConditionError} (invalid : r.validate = .error e) (value : Float) :
    r.breaches value = .error e := by
  rw [breaches, invalid]
  rfl

theorem of_valid (valid : r.validate = .ok ()) : (∀ raw, r.operator ≠ .unsupported raw) ∧ r.required ≠ 0 := by
  rw [validate] at valid
  split at valid
  · exact absurd valid (by simp)
  split at valid
  · exact absurd valid (by simp)
  split at valid
  · exact absurd valid (by simp)
  · next supported =>
    split at valid
    · exact absurd valid (by simp)
    · next some => exact ⟨fun raw same => supported raw same, some⟩

/-- A rule that cannot be evaluated for one value cannot be for any. -/
theorem isBreach_of_error {e : ConditionError} (fails : r.breaches value = .error e) (other : Float) :
    r.isBreach other = false := by
  cases valid : r.validate with
  | error e => rw [isBreach, breaches_of_invalid valid]
  | ok _ =>
    rw [breaches_of_valid valid] at fails
    rw [isBreach, breaches_of_valid valid]
    cases bound : r.threshold with
    | none => rfl
    | some limit =>
      rw [bound] at fails
      cases nan : limit.isNaN with
      | true => simp only [Condition.evaluate, nan, if_true]
      | false =>
        -- Only an operator that is not supported is left, and that makes the rule invalid.
        cases operator : r.operator with
        | unsupported raw => exact absurd operator ((of_valid valid).1 raw)
        | _ =>
          rw [operator] at fails
          simp only [Condition.evaluate, nan, Bool.false_eq_true, if_false] at fails
          split at fails <;> exact absurd fails (by simp)

theorem run_of_error {e : ConditionError} (fails : r.breaches value = .error e) (values : List Float) :
    r.run values = [] :=
  List.rtakeWhile_eq_nil_iff.mpr fun _ => by rw [isBreach_of_error fails]; exact Bool.false_ne_true

end Rule

end Runs

/-! ### A firing state is replaced -/

section Judging

variable {T : Type} {team : Team T} {rules : List Rule} {w w' : World} {rule : RuleId} {id : SlotId} {r : Rule}
  {values : List Float} {value : Float} {time : Timestamp} {event : Event}

theorem Tracker.Calm.restate {t : Tracker} {state : FiringState} (calm : t.Calm rules)
    (found : t.find? rule = some id) (named : state.ruleId = (t.slot id).state.ruleId)
    (fits : ∀ {r}, Rule.inForce rules rule = some r → state.Fits r) : (t.setState id state).Calm rules := by
  have slots := slotFor_setState _ calm.coherent found named
  have rewrites : t.Rewrites id (t.setState id state) := rewrites_setState named
  refine ⟨rewrites.coherent calm.coherent (calm.coherent.get found), fun rule' => ?_, fun rule' => ?_,
    fun found => calm.known found, fun {rule' r} known => ?_⟩
  all_goals
    rw [slots]
    split
  · exact calm.empty rule
  · exact calm.empty rule'
  · exact calm.kept rule
  · exact calm.kept rule'
  · next same => exact fits (same ▸ known)
  · exact calm.fits known

namespace World

def restated (w : World) (id : SlotId) (state : FiringState) (ids : Supply AlertId) (journal : List Happening) :
    World :=
  { w.onTracker (·.setState id state) with ids, journal }

theorem transition_eq (w : World) (id : SlotId) (r : Rule) (breached : Bool) (value : Float) (time : Timestamp) :
    let turned := (w.slot id).state.transition w.ids.next r breached value time
    w.transition id r breached value time =
      (w.restated id turned.1 (if turned.2.any Event.isOpened then w.ids.advance else w.ids)
        (turned.2.toList.map .produced ++ w.journal), turned.2) := by
  intro turned
  have changed : w.engine.tracker.change id (.transition w.ids.next r breached value time) =
      (w.engine.tracker.setState id turned.1, turned.2) := rfl
  rw [transition, change, changed]
  cases turned.2 with
  | none => rfl
  | some event => cases event <;> rfl

theorem AtPeace.restated {state : FiringState} (calm : w.AtPeace rules) (ids : Supply AlertId)
    (journal : List Happening)
    (found : w.engine.tracker.find? rule = some id) (named : state.ruleId = rule)
    (fits : ∀ {r}, Rule.inForce rules rule = some r → state.Fits r)
    (store : ∀ opened, opened rule = state.openAlertId →
      (∀ {rule'}, rule' ≠ rule → opened rule' = (w.firing rule').openAlertId) → w.sink.store.Calm rules ids opened) :
    (Pact.calm rules (· = rule) False).self w (w.restated id state ids journal) ∧
      (w.restated id state ids journal).AtPeace rules ∧ (w.restated id state ids journal).firing rule = state := by
  have own : state.ruleId = (w.engine.tracker.slot id).state.ruleId :=
    named.trans (calm.tracker.coherent.stateRuleId found).symm
  have slots := Tracker.slotFor_setState _ calm.tracker.coherent found own
  have here : (w.restated id state ids journal).firing rule = state :=
    congrArg Slot.state ((slots rule).trans (if_pos rfl))
  have others {rule' : RuleId} (other : rule' ≠ rule) :
      (w.restated id state ids journal).firing rule' = w.firing rule' :=
    congrArg Slot.state ((slots rule').trans (if_neg other))
  have calm' : (w.restated id state ids journal).AtPeace rules :=
    ⟨calm.loaded, calm.valid, calm.source, calm.tracker.restate found own fits, calm.plain,
      store _ (congrArg FiringState.openAlertId here) fun other => congrArg FiringState.openAlertId (others other),
      calm.unburied⟩
  refine ⟨fun _ => ⟨calm', ⟨fun found => found, Nat.le_refl _, fun other => ?_, fun _ there => ⟨_, there, rfl⟩,
    fun _ _ => Iff.rfl⟩, rfl⟩, calm', here⟩
  rw [others other]

end World

/-! ### What a sample comes to -/

namespace Rule

theorem trigger?_breach (breach : r.isBreach value = true) {opening : Float}
    (reached : r.trigger? values = some opening) :
    r.trigger? (values ++ [value]) = some opening := by
  rw [trigger?] at reached
  rw [trigger?, run_breach breach, List.getElem?_append_left (List.getElem?_eq_some_iff.mp reached).1, reached]

theorem trigger?_reached (breach : r.isBreach value = true) (last : (r.run values).length + 1 = r.needed) :
    r.trigger? (values ++ [value]) = some value := by
  have place : r.needed - 1 = (r.run values).length := by omega
  rw [trigger?, run_breach breach, place, List.getElem?_concat_length]

end Rule

namespace FiringState

variable {s : FiringState} {fresh : AlertId} {breached : Bool}

theorem Fits.transition (fits : s.Fits r) : (s.transition fresh r breached value time).1.Fits r := by
  intro print mem
  change (s.fingerprint <|> some r.fingerprint) = some print at mem
  cases remembered : s.fingerprint with
  | none =>
    rw [remembered] at mem
    exact (Option.some.inj mem).symm
  | some print' =>
    rw [remembered] at mem
    exact Option.some.inj mem ▸ fits print' remembered

theorem Shows.transition (shows : Shows s.phase (r.run values).length r.needed)
    (judged : r.isBreach value = breached) :
    Shows (s.transition fresh r breached value time).1.phase (r.run (values ++ [value])).length r.needed := by
  change Shows (s.nextPhase fresh r breached value time).1 _ _
  cases breached with
  | true =>
    rw [Rule.run_breach judged, List.length_append, List.length_singleton]
    exact (nextPhase_breach shows fresh value time).1
  | false =>
    rw [nextPhase_quiet, Rule.run_quiet judged]
    exact .clear

/-- An alert is opened by the value that makes the run as long as the rule asks for. -/
theorem Shows.reached (shows : Shows s.phase (r.run values).length r.needed)
    (judged : r.isBreach value = breached) {alert : Alert}
    (opens : (s.transition fresh r breached value time).2 = some (.opened alert)) :
    r.trigger? (values ++ [value]) = some value := by
  change (s.nextPhase fresh r breached value time).2 = _ at opens
  cases breached with
  | true =>
    rw [(nextPhase_breach shows fresh value time).2] at opens
    split at opens
    · next last => exact Rule.trigger?_reached judged last
    · exact absurd opens (by simp)
  | false =>
    rw [nextPhase_quiet] at opens
    obtain ⟨id, -, same⟩ := Option.map_eq_some_iff.mp opens
    exact absurd same (by simp [closing])

theorem breached_of_open {id : AlertId}
    (opened : (s.transition fresh r breached value time).1.openAlertId = some id) : breached = true := by
  cases breached with
  | true => rfl
  | false =>
    have clear : (s.transition fresh r false value time).1.phase = .clear :=
      congrArg Prod.fst (nextPhase_quiet s fresh r value time)
    rw [openAlertId, clear] at opened
    exact absurd opened (by simp)

end FiringState

/-- What becomes of the tally of a rule with one more value: it is kept, or an event is on its way. -/
def World.Turned (r : Rule) (values : List Float) (events : List Event) (w : World) : Prop :=
  events = [] ∧ w.Tallied r values ∨ ∃ event, events = [event] ∧ w.Owes r values event

theorem World.Tallied.others (tallied : w.Tallied r values)
    (others : (Pact.calm rules (· = r.id) False).others w w') : w'.Tallied r values := by
  obtain ⟨calm', retains, -⟩ := others
  have phase : (w'.firing r.id).phase = (w.firing r.id).phase := retains.phase rfl
  have opens : (w'.firing r.id).openAlertId = (w.firing r.id).openAlertId := by
    rw [FiringState.openAlertId, phase, FiringState.openAlertId]
  refine ⟨phase ▸ tallied.shows, fun there named isOpen => ?_, fun opened => ?_⟩
  · rw [opens]
    exact tallied.stored ((retains.shown named isOpen).mp there) named isOpen
  · obtain ⟨a, there, named, isOpen⟩ := tallied.found (opens.symm.trans opened)
    exact ⟨a, (retains.shown named isOpen).mpr there, named, isOpen⟩

theorem World.Owes.others (owes : w.Owes r values event)
    (others : (Pact.calm rules (· = r.id) False).others w w') : w'.Owes r values event := by
  obtain ⟨calm', retains, -⟩ := others
  have phase : (w'.firing r.id).phase = (w.firing r.id).phase := retains.phase rfl
  have opens : (w'.firing r.id).openAlertId = (w.firing r.id).openAlertId := by
    rw [FiringState.openAlertId, phase, FiringState.openAlertId]
  cases owes with
  | opened shows opened reached absent none =>
    refine .opened (phase ▸ shows) (opens.trans opened) reached (fun holds => absent ?_)
      fun {id a} there named => ?_
    · -- Nobody else stores an alert under the id.
      obtain ⟨a, there⟩ := holds
      have named := (calm'.store.reserved (opens.trans opened)).2 there
      obtain ⟨b, here, -⟩ := retains.held named there
      exact ⟨b, here⟩
    · by_contra isOpen
      rw [Bool.not_eq_false] at isOpen
      exact Bool.false_ne_true ((none ((retains.shown named isOpen).mp there) named).symm.trans isOpen)
  | resolved shows shut there only =>
    obtain ⟨a, here, named, isOpen⟩ := there
    exact .resolved (phase ▸ shows) (opens.trans shut) ⟨a, (retains.shown named isOpen).mpr here, named, isOpen⟩
      fun there' named' isOpen' => only ((retains.shown named' isOpen').mp there') named' isOpen'

/-- A sample leaves the alerts that are tracked, or it opens one under the id that was drawn for it. -/
theorem World.AtPeace.store_turned {breached : Bool} (calm : w.AtPeace rules) {opened : RuleId → Option AlertId}
    (own : opened r.id = ((w.firing r.id).transition w.ids.next r breached value time).1.openAlertId)
    (others : ∀ {rule'}, rule' ≠ r.id → opened rule' = (w.firing rule').openAlertId) :
    w.sink.store.Calm rules
      (if ((w.firing r.id).transition w.ids.next r breached value time).2.any Event.isOpened then w.ids.advance
        else w.ids) opened := by
  have keeps (stays : ∀ {x}, opened r.id = some x → (w.firing r.id).openAlertId = some x) :
      w.sink.store.Calm rules w.ids opened := by
    refine calm.store.mono fun {rule' x} opens => ?_
    by_cases mine : rule' = r.id
    · subst mine
      exact stays opens
    · exact (others mine).symm.trans opens
  have outcome : (w.firing r.id).Outcome _ _ _ :=
    (w.firing r.id).apply_outcome (.transition w.ids.next r breached value time)
  simp only [FiringState.apply] at outcome
  generalize ((w.firing r.id).transition w.ids.next r breached value time).1 = state at own outcome
  generalize ((w.firing r.id).transition w.ids.next r breached value time).2 = event at outcome ⊢
  cases outcome with
  | still same => exact keeps fun opens => same.symm.trans (own.symm.trans opens)
  | closes was clear => exact keeps fun opens => absurd (clear.symm.trans (own.symm.trans opens)) (by simp)
  | opens made was now =>
    cases made
    exact calm.store.draws (own.trans now) others

/-- The tally of a rule once its firing state has taken one more value. -/
theorem World.Tallied.turned {breached : Bool} {fresh : AlertId} (tallied : w.Tallied r values)
    (judged : r.isBreach value = breached) (named : (w.firing r.id).ruleId = r.id)
    (unused : ¬ w.sink.store.Holds fresh) (store : w'.sink.store = w.sink.store)
    (state : w'.firing r.id = ((w.firing r.id).transition fresh r breached value time).1) :
    w'.Turned r (values ++ [value]) ((w.firing r.id).transition fresh r breached value time).2.toList := by
  have shows : FiringState.Shows (w'.firing r.id).phase _ _ := state ▸ tallied.shows.transition judged
  have outcome : (w.firing r.id).Outcome _ _ _ :=
    (w.firing r.id).apply_outcome (.transition fresh r breached value time)
  simp only [FiringState.apply, ← state] at outcome
  generalize produced : ((w.firing r.id).transition fresh r breached value time).2 = event at outcome
  cases outcome with
  | still same =>
    refine .inl ⟨rfl, shows, fun there mine isOpen => ?_, fun opened => ?_⟩
    · obtain ⟨opened, v, t, reached, made⟩ := tallied.stored (store ▸ there) mine isOpen
      have breach : breached = true := FiringState.breached_of_open (state ▸ same.trans opened)
      exact ⟨same.trans opened, v, t, Rule.trigger?_breach (judged.trans breach) reached, made⟩
    · exact store ▸ tallied.found (same.symm.trans opened)
  | closes was clear =>
    rw [named]
    refine .inr ⟨_, rfl, .resolved shows clear (store ▸ tallied.found was) fun there mine isOpen => ?_⟩
    exact Option.some.inj ((tallied.stored (store ▸ there) mine isOpen).1.symm.trans was)
  | opens made was now =>
    cases made
    refine .inr ⟨_, rfl, .opened shows now (tallied.shows.reached judged produced) (store ▸ unused) ?_⟩
    intro id a there mine
    by_contra isOpen
    rw [Bool.not_eq_false] at isOpen
    exact absurd (was.symm.trans (tallied.stored (store ▸ there) mine isOpen).1) (by simp)

theorem World.AtPeace.transition {breached : Bool} (calm : w.AtPeace rules) (value : Float) (time : Timestamp)
    (tallied : w.Tallied r values)
    (known : Rule.inForce rules r.id = some r) (found : w.engine.tracker.find? r.id = some id)
    (judged : r.isBreach value = breached) :
    let after := w.transition id r breached value time
    (Pact.calm rules (· = r.id) False).self w after.1 ∧ after.1.AtPeace rules ∧
      after.1.engine.tracker.find? r.id = some id ∧ after.1.Turned r (values ++ [value]) after.2.toList := by
  intro after
  have state : (w.slot id).state = w.firing r.id := congrArg Slot.state (Tracker.slotFor_of_find found).symm
  have same : after = _ := w.transition_eq id r breached value time
  rw [state] at same
  have named : (w.firing r.id).ruleId = r.id := Tracker.slotFor_stateRuleId calm.tracker.coherent r.id
  have fits {r' : Rule} (known' : Rule.inForce rules r.id = some r') :
      ((w.firing r.id).transition w.ids.next r breached value time).1.Fits r' := by
    obtain rfl := Option.some.inj (known.symm.trans known')
    exact (calm.tracker.fits known).transition
  have unused : ¬ w.sink.store.Holds w.ids.next := fun holds => calm.store.unused (calm.store.given holds)
  have turned : ((w.firing r.id).transition w.ids.next r breached value time).1.ruleId = r.id := named
  rw [same]
  obtain ⟨self, calm', firing⟩ := calm.restated _ _ found turned fits fun _ own others => calm.store_turned own others
  exact ⟨self, calm', found, tallied.turned judged named unused rfl firing⟩

theorem World.Tallied.congr {values' : List Float} (tallied : w.Tallied r values)
    (same : r.run values' = r.run values) :
    w.Tallied r values' := by
  have trigger : r.trigger? values' = r.trigger? values := by rw [Rule.trigger?, same, Rule.trigger?]
  exact ⟨same ▸ tallied.shows, trigger ▸ tallied.stored, tallied.found⟩

theorem World.AtPeace.judge (calm : w.AtPeace rules) (value : Float) (time : Timestamp) (tallied : w.Tallied r values)
    (known : Rule.inForce rules r.id = some r) (found : w.engine.tracker.find? r.id = some id) :
    let after := w.judge id r value time
    (Pact.calm rules (· = r.id) False).self w after.1 ∧ after.1.AtPeace rules ∧
      after.1.engine.tracker.find? r.id = some id ∧ after.1.Turned r (values ++ [value]) after.2 := by
  intro after
  cases judged : r.breaches value with
  | error e =>
    have same : after = (w.count .invalidRule, []) := by
      change w.judge id r value time = _
      rw [World.judge, judged]
    have counts : w.Rests rules (w.count .invalidRule) := calm.aside rfl rfl rfl rfl rfl rfl rfl (Nat.le_refl _) rfl
    rw [same]
    refine ⟨Pact.calm_self fun _ => counts, calm.rests counts, found, .inl ⟨rfl, ?_⟩⟩
    refine (tallied.others (calm.others counts)).congr ?_
    rw [Rule.run_of_error judged, Rule.run_of_error judged]
  | ok breached =>
    have counts : w.Rests rules (w.count .evaluation) := calm.aside rfl rfl rfl rfl rfl rfl rfl (Nat.le_refl _) rfl
    obtain ⟨silent, syncs⟩ := (calm.rests counts).sync found known time
    have rests := counts.trans syncs
    have same : after = (((w.count .evaluation).change id (.sync r time)).1.transition id r breached value time |>.1,
        (((w.count .evaluation).change id (.sync r time)).1.transition id r breached value time).2.toList) := by
      change w.judge id r value time = _
      rw [World.judge, judged]
      change ((((w.count .evaluation).change id (.sync r time)).1.transition id r breached value time).1,
        ((w.count .evaluation).change id (.sync r time)).2.toList ++ _) = _
      rw [silent]
      rfl
    obtain ⟨self, done⟩ := (calm.rests rests).transition value time
      (tallied.others (calm.others rests)) known (rests.tracker.stays found) (Rule.isBreach_of_ok judged)
    rw [same]
    exact ⟨Pact.goesOn _ (Pact.calm_self fun _ => rests) self, done⟩

/-! ### What is delivered -/

def World.took (w : World) (event : Event) : World :=
  ({ w with sink := { store := (w.sink.store.take event).1 } }.note
    (.answered event (w.sink.store.take event).2)).moved

theorem World.Owes.ruleId (owes : w.Owes r values event) : event.ruleId = r.id := by
  cases owes <;> rfl

theorem World.Owes.expects (owes : w.Owes r values event) (known : Rule.inForce rules r.id = some r) :
    w.sink.store.Expects rules (fun rule => (w.firing rule).openAlertId) event := by
  cases owes with
  | opened shows opens reached absent none => exact ⟨opens, ⟨r, known⟩, absent, none⟩
  | resolved shows shut there only =>
    obtain ⟨a, here, named, -⟩ := there
    exact ⟨a, here, named⟩

/-- What was owed is in the store, and the tally is kept again. -/
theorem World.Owes.tallied (owes : w.Owes r values event) (accepted : (w.sink.store.take event).2 = .ok ()) :
    (w.took event).Tallied r values := by
  have changes := w.sink.store.changes_take event
  cases owes with
  | @opened fresh value time shows opens reached absent none =>
    have stored {id : AlertId} {a : Alert}
        (there : (w.sink.store.take (.opened (.ofRule fresh r value time))).1.get? id =
        some a) (named : a.ruleId = r.id) (isOpen : a.isOpen = true) : id = fresh ∧ a = .ofRule id r value time := by
      rcases changes.records there with ⟨before, here, mine, -, was⟩ | ⟨made, rfl⟩
      · exact absurd ((none here (mine.symm.trans named)).symm.trans (was isOpen)) Bool.false_ne_true
      · obtain rfl := Event.opened.inj made
        exact ⟨rfl, rfl⟩
    refine ⟨shows, fun {id a} there named isOpen => ?_, fun {id} opened => ?_⟩
    · obtain ⟨rfl, made⟩ := stored there named isOpen
      exact ⟨opens, value, time, reached, made⟩
    · obtain rfl := Option.some.inj (opens.symm.trans opened)
      obtain ⟨a, there⟩ := changes.created accepted fresh rfl
      rcases changes.records there with ⟨before, here, -⟩ | ⟨made, -⟩
      · exact absurd ⟨before, here⟩ absent
      · obtain rfl := Event.opened.inj made
        exact ⟨_, there, rfl, rfl⟩
  | @resolved x time reason shows shut there only =>
    refine ⟨shows, fun {id a} there' named isOpen => ?_, fun opened => absurd (shut.symm.trans opened) (by simp)⟩
    rcases changes.records there' with ⟨before, here, mine, -, was⟩ | ⟨made, -⟩
    · obtain rfl := only here (mine.symm.trans named) (was isOpen)
      exact absurd ⟨a, there', isOpen⟩ (changes.closed accepted id rfl)
    · exact absurd made (by simp)

theorem World.AtPeace.took (calm : w.AtPeace rules) (owes : w.Owes r values event)
    (known : Rule.inForce rules r.id = some r) :
    (Pact.calm rules (· = r.id) False).self w (w.took event) ∧ (w.took event).AtPeace rules := by
  have expects := owes.expects known
  have calm' : (w.took event).AtPeace rules :=
    ⟨calm.loaded, calm.valid, calm.source, calm.tracker, rfl, calm.store.take expects, calm.unburied⟩
  refine ⟨fun _ => ⟨calm', ⟨fun found => found, Nat.le_refl _, fun _ => rfl, fun {id a} other there => ?_,
    fun {id a} other isOpen => ?_⟩, rfl⟩, calm'⟩
  · exact (expects.others fun same => other (same.trans owes.ruleId)).1 there
  · exact (expects.others fun same => other (same.trans owes.ruleId)).2 isOpen

/-- The store acts and answers at once. -/
theorem Request.deliver_at_once {begun limit : Duration} (plain : w.sink = { store := w.sink.store })
    (time : begun ≤ w.clock) :
    (Request.deliver event).poll ({ act := {}, start := begun, answer := none }, limit) w =
      (w.took event, .answered (w.sink.store.take event).2) := by
  let flight : Flight (Except SinkError Unit) := { act := {}, start := begun, answer := none }
  have acts : flight.actsAt ≤ w.clock := time
  have delivered : w.sink.deliver .pass event =
      ({ store := (w.sink.store.take event).1 }, (w.sink.store.take event).2) := by
    rw [← Sink.deliver_plain, ← plain]
  have flown : flight.poll w (fun sink deed => sink.deliver deed event) =
      ({ w with sink := { store := (w.sink.store.take event).1 } },
        { flight with answer := some (w.sink.store.take event).2 }) := by
    rw [Flight.poll]
    change (if flight.actsAt ≤ w.clock then
      ({ w with sink := (w.sink.deliver .pass event).1 }, { flight with answer := some (w.sink.deliver .pass event).2 })
      else (w, flight)) = _
    rw [if_pos acts, delivered]
  have result : Flight.result? { flight with answer := some (w.sink.store.take event).2 } w.clock =
      some (w.sink.store.take event).2 := if_pos acts
  simp only [poll]
  rw [show Flight.poll _ w _ = _ from flown]
  dsimp only
  rw [result]
  rfl

theorem Request.calm_deliver (few : rules.length ≤ AlertStore.capacity) (calm : w.AtPeace rules)
    (owes : w.Owes r values event) (known : Rule.inForce rules r.id = some r)
    (found : w.engine.tracker.find? r.id = some id) :
    (Request.deliver event).Handled (Pact.calm rules (· = r.id) False) w fun answer w' =>
      answer = .ok () ∧ w'.AtPeace rules ∧ w'.Tallied r values ∧ w'.engine.tracker.find? r.id = some id := by
  have started : w.sink.startDelivery event = (w.sink, {}) := by
    rw [calm.plain]
    cases event <;> rfl
  have begun : (Request.deliver event).start w.takeTicket.2 w.takeTicket.1 =
      (w.takeTicket.1.note (.sent event), { act := {}, start := w.clock }, w.engine.sinkTimeout) := by
    have started : w.takeTicket.1.sink.startDelivery event = (w.takeTicket.1.sink, {}) := started
    rw [start]
    dsimp only
    rw [started]
    rfl
  have rests : w.Rests rules (w.takeTicket.1.note (.sent event)) :=
    calm.aside rfl rfl rfl rfl rfl rfl rfl (Nat.le_refl _) rfl
  rw [Handled, begun]
  refine ⟨Pact.calm_self fun _ => rests, fun w' wait => w'.AtPeace rules ∧ w'.Owes r values event ∧
    w'.engine.tracker.find? r.id = some id ∧ wait.1.act = {} ∧ wait.1.answer = none ∧ wait.1.start ≤ w'.clock,
    ⟨calm.rests rests, owes.others (calm.others rests), found, rfl, rfl, Nat.le_refl _⟩, ?_, ?_, ?_⟩
  · rintro w' w'' wait ⟨-, there, found, act, unanswered, begun⟩ others
    exact ⟨others.1, there.others others, others.2.1.stays found, act, unanswered,
      Nat.le_trans begun others.2.1.clock⟩
  all_goals
    rintro w' w'' ⟨⟨act, begun, answer⟩, limit⟩ out ⟨calm', there, found, rfl, rfl, time⟩ polled
    rw [deliver_at_once calm'.plain time] at polled
  · exact absurd (Prod.mk.inj polled).2 (by simp)
  · obtain ⟨rfl, got⟩ := Prod.mk.inj polled
    obtain rfl := Progress.answered.inj got
    have accepted := calm'.store.accepts few (there.expects known)
    obtain ⟨self, calm''⟩ := calm'.took there known
    exact ⟨self, accepted, calm'', there.tallied accepted, found⟩

/-! ### Evaluating a sample -/

theorem calm_dispatchAll {events : List Event} (few : rules.length ≤ AlertStore.capacity) (calm : w.AtPeace rules)
    (turned : w.Turned r values events) (known : Rule.inForce rules r.id = some r)
    (found : w.engine.tracker.find? r.id = some id) :
    (dispatchAll id events : Prog T _).Ensures (Pact.calm rules (· = r.id) False) team w fun _ w' =>
      w'.AtPeace rules ∧ w'.Tallied r values ∧ w'.engine.tracker.find? r.id = some id := by
  rcases turned with ⟨rfl, tallied⟩ | ⟨event, rfl, owes⟩
  · exact ensures_pure ⟨calm, tallied, found⟩
  · have hands : w.Rests rules (w.hand event) := calm.aside rfl rfl rfl rfl rfl rfl rfl (Nat.le_refl _) (by
      cases event <;> rfl)
    have empty : ((w.hand event).slot id).outbox = [] := calm.tracker.slot_empty found
    rw [dispatchAll, dispatch, Prog.then_assoc]
    refine ensures_modify (Pact.calm_self fun _ => hands) ?_
    rw [Prog.then_assoc]
    refine ensures_read ?_
    rw [empty]
    simp only [List.isEmpty_nil, if_true]
    rw [Prog.then_assoc]
    have owes₁ := owes.others (calm.others hands)
    refine ensures_request ((Request.calm_deliver few (calm.rests hands) owes₁ known found).imp ?_)
    rintro _ w₁ ⟨rfl, done⟩
    exact ensures_pure done

/-- While nobody else judges samples for the rule, a sample is added to its tally. -/
theorem calm_evaluate [team.Monotone] {metric : String} (few : rules.length ≤ AlertStore.capacity)
    (calm : w.AtPeace rules)
    (tallied : w.Tallied r values) (known : Rule.inForce rules r.id = some r) (watches : r.metricKey = metric) :
    (evaluate r.id metric value time : Prog T _).Ensures (Pact.calm rules (· = r.id) False) team w fun _ w' =>
      w'.AtPeace rules ∧ w'.Tallied r (values ++ [value]) := by
  have leaves : (Pact.calm rules (· = r.id) False).Leaves (World.Tallied r values) :=
    fun _ _ tallied others => tallied.others others
  refine ensures_request ((Request.calm_slot leaves ⟨calm, tallied⟩ known).imp ?_)
  rintro id w₁ ⟨⟨calm₁, tallied₁⟩, found₁⟩
  have listed : (w₁.rule? r.id).filter (·.metricKey = metric) = some r := by
    rw [calm₁.rule?_eq, known, Option.filter_some, if_pos (decide_eq_true watches)]
  refine ensures_read ?_
  rw [listed]
  obtain ⟨self, calm₂, found₂, turned⟩ := calm₁.judge value time tallied₁ known found₁
  refine ensures_step self ((calm_dispatchAll few calm₂ turned known found₂).bind ?_)
  rintro _ w₃ ⟨calm₃, tallied₃, found₃⟩
  have lets := calm₃.rests_leave found₃
  exact ensures_modify (Pact.calm_self fun _ => lets)
    (ensures_pure ⟨calm₃.rests lets, tallied₃.others (calm₃.others lets)⟩)

def Rule.Watched (rules : List Rule) (metric : String) (rule : RuleId) : Prop :=
  ∃ r, inForce rules rule = some r ∧ r.metricKey = metric

def World.TalliedFor (rules : List Rule) (metric : String) (values : List Float) (w : World) : Prop :=
  ∀ r, Rule.inForce rules r.id = some r → r.metricKey = metric → w.Tallied r values

/-- Evaluating a sample against a rule; nobody else does so for that rule in the meantime. -/
def Duty.evaluate (rules : List Rule) (values : List Float) (r : Rule) : Duty where
  pact := Pact.calm rules (· = r.id) False
  post _ w := w.Tallied r values
  stable tallied others := tallied.others others

section Samples

variable {metric : String} {x : Sample}

theorem World.TalliedFor.others (tallied : w.TalliedFor rules metric values)
    (others : (Pact.calm rules (Rule.Watched rules metric) False).others w w') : w'.TalliedFor rules metric values := by
  intro r known watches
  refine (tallied r known watches).others ⟨others.1, others.2.1.mono fun same => ?_, False.elim⟩
  exact same ▸ ⟨r, known, watches⟩

theorem Duty.shares_evaluate {listed : List Rule} (once : (listed.map Rule.id).Nodup)
    (watched : ∀ r ∈ listed, Rule.Watched rules metric r.id) :
    (Pact.calm rules (Rule.Watched rules metric) False).Shares (World.AtPeace rules)
      (listed.map (Duty.evaluate rules values)) := by
  have duty {d : Duty} (mem : d ∈ listed.map (Duty.evaluate rules values)) :
      ∃ r ∈ listed, Duty.evaluate rules values r = d := List.mem_map.mp mem
  refine ⟨fun d mem w w' self calm => ?_, fun d mem w w' others => ?_, fun _ others => others.1,
    fun d mem w w' calm self => ?_, fun {i j d d'} ne there there' w w' calm self => ?_⟩
  · obtain ⟨r, its, rfl⟩ := duty mem
    obtain ⟨calm', retains, same⟩ := self calm
    exact ⟨calm', retains.mono fun away mine => away (mine ▸ watched r its), same⟩
  · obtain ⟨r, its, rfl⟩ := duty mem
    exact ⟨others.1, others.2.1.mono fun mine => mine ▸ watched r its, False.elim⟩
  · obtain ⟨r, -, rfl⟩ := duty mem
    exact (self calm).1
  · rw [List.getElem?_map, Option.map_eq_some_iff] at there there'
    obtain ⟨r, listed, rfl⟩ := there
    obtain ⟨r', listed', rfl⟩ := there'
    obtain ⟨calm', retains, -⟩ := self calm
    refine ⟨calm', retains.mono fun mine same => ne ?_, False.elim⟩
    obtain ⟨inside, rfl⟩ := List.getElem?_eq_some_iff.mp listed
    obtain ⟨inside', rfl⟩ := List.getElem?_eq_some_iff.mp listed'
    refine (@List.Nodup.getElem_inj_iff _ _ once i (by simpa using inside) j (by simpa using inside')).mp ?_
    rw [List.getElem_map, List.getElem_map]
    exact same.symm.trans mine

/-- The rules of the metric judge a sample side by side. -/
theorem calm_evaluateAll {snapshot : RuleSnapshot} (few : rules.length ≤ AlertStore.capacity) (calm : w.AtPeace rules)
    (tallied : w.TalliedFor rules metric values)
    (loaded : ∃ generation time, snapshot = .build rules generation time) :
    (evaluateAll snapshot metric value time).Ensures (Pact.calm rules (Rule.Watched rules metric) False)
      (Team.dutiful (Pact.calm rules (Rule.Watched rules metric) False)) w fun _ w' =>
        w'.AtPeace rules ∧ w'.TalliedFor rules metric (values ++ [value]) := by
  have leaves : (Pact.calm rules (Rule.Watched rules metric) False).Leaves (World.TalliedFor rules metric values) :=
    fun _ _ tallied others => tallied.others others
  obtain ⟨generation, built, rfl⟩ := loaded
  have got (rule : RuleId) : (RuleSnapshot.build rules generation built).get? rule = Rule.inForce rules rule :=
    RuleSnapshot.get?_build ..
  have indexed := RuleSnapshot.indexed_build rules generation built
  have complete := RuleSnapshot.complete_build rules generation built
  refine (calm_reconcileIfNewer leaves ⟨calm, tallied⟩ _).bind ?_
  rintro early w₁ ⟨rfl, calm₁, tallied₁⟩
  have listed {r : Rule} (known : Rule.inForce rules r.id = some r) (watches : r.metricKey = metric) :
      r ∈ (RuleSnapshot.build rules generation built).rulesFor metric :=
    watches ▸ complete r.id r ((got _).trans known)
  have watched : ∀ r ∈ (RuleSnapshot.build rules generation built).rulesFor metric,
      Rule.inForce rules r.id = some r ∧ r.metricKey = metric := fun r mem =>
    ⟨(got _).symm.trans (indexed.listed mem).1, (indexed.listed mem).2⟩
  have once := indexed.once metric
  generalize (RuleSnapshot.build rules generation built).rulesFor metric = group at listed watched once
  cases group with
  | nil => exact ensures_pure ⟨calm₁, fun r known watches => absurd (listed known watches) (by simp)⟩
  | cons first rest =>
    refine Prog.ensures_then ⟨World.AtPeace rules, (first :: rest).map (Duty.evaluate rules (values ++ [value])),
      Duty.shares_evaluate once fun r mem => ⟨r, watched r mem⟩, calm₁, ?_, fun results w' calm' each => ?_⟩
    · rw [List.forall₂_map_left_iff, List.forall₂_map_right_iff]
      refine List.forall₂_same.mpr fun r mem => ?_
      obtain ⟨known, watches⟩ := watched r mem
      exact ⟨fun w => w.AtPeace rules ∧ w.Tallied r values, ⟨calm₁, tallied₁ r known watches⟩,
        fun here others => ⟨others.1, here.2.others others⟩,
        fun here => (calm_evaluate few here.1 here.2 known watches).weaken fun _ _ done => done.2⟩
    · refine ensures_pure ⟨calm', fun r known watches => ?_⟩
      obtain ⟨i, inside, rfl⟩ := List.mem_iff_getElem.mp (listed known watches)
      have bound : i < results.length := by
        rw [← each.length_eq, List.length_map]
        exact inside
      have done := each.get (by rwa [List.length_map]) bound
      rw [List.get_eq_getElem, List.getElem_map] at done
      exact done

end Samples

end Judging

end ThresholdAlerts
