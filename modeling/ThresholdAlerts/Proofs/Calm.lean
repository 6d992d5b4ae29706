import ThresholdAlerts.Proofs.Acceptance
import ThresholdAlerts.Proofs.Teamwork
/-! Calm: the source serves the same rules all the time, the store is available and has room, and nothing waits to
be delivered. Main statement: calls that judge no sample leave a calm world calm; no rule notices them. -/
namespace ThresholdAlerts

open Prog

/-- The definition of a rule that counts: of several enabled ones with its id, the first. -/
def Rule.inForce (rules : List Rule) (id : RuleId) : Option Rule :=
  rules.find? fun r => r.enabled && r.id = id

def Supply.Gave (s : Supply α) (a : α) : Prop :=
  ∃ n < s.taken, s.value n = a

def FiringState.adopt (s : FiringState) (r : Rule) : FiringState :=
  { s with fingerprint := some r.fingerprint }

/-! ### What is calm -/

/-- Nothing waits in a slot, and no rule is about to go or was edited. -/
structure Tracker.Calm (rules : List Rule) (t : Tracker) : Prop where
  coherent : t.Coherent
  empty : ∀ rule, (t.slotFor rule).outbox = []
  kept : ∀ rule, (t.slotFor rule).retired = false
  known : ∀ {rule id}, t.find? rule = some id → ∃ r, Rule.inForce rules rule = some r
  fits : ∀ {rule r}, Rule.inForce rules rule = some r → (t.slotFor rule).state.Fits r

/-- The store holds at most one open alert of each rule, and `opened` tells the alerts that are open or are
about to be stored. -/
structure AlertStore.Calm (rules : List Rule) (ids : Supply AlertId) (opened : RuleId → Option AlertId)
    (s : AlertStore) : Prop where
  available : s.unavailable = false
  distinct : Function.Injective ids.value
  known : ∀ {id a}, s.get? id = some a → a.isOpen = true → ∃ r, Rule.inForce rules a.ruleId = some r
  single : ∀ {id id' a a'}, s.get? id = some a → s.get? id' = some a' → a.isOpen = true → a'.isOpen = true →
    a.ruleId = a'.ruleId → id = id'
  given : ∀ {id}, s.Holds id → ids.Gave id
  reserved : ∀ {rule id}, opened rule = some id → ids.Gave id ∧ ∀ {a}, s.get? id = some a → a.ruleId = rule
  apart : ∀ {rule rule' id}, opened rule = some id → opened rule' = some id → rule = rule'

structure World.AtPeace (rules : List Rule) (w : World) : Prop where
  loaded : ∃ generation time, w.engine.rules.snapshot = .build rules generation time
  valid : w.engine.rules.invalidated = false
  source : w.source.fetch = .ok rules
  tracker : w.engine.tracker.Calm rules
  plain : w.sink = { store := w.sink.store }
  store : w.sink.store.Calm rules w.ids fun rule => (w.firing rule).openAlertId
  unburied : w.engine.deadLetters.size = 0

/-! ### What no rule notices -/

/-- Slots are made and queues move. A streak may take the fingerprint of its rule. -/
structure Tracker.Rests (rules : List Rule) (t t' : Tracker) : Prop where
  coherent : t'.Coherent
  phase : ∀ rule, (t'.slotFor rule).state.phase = (t.slotFor rule).state.phase
  outbox : ∀ rule, (t'.slotFor rule).outbox = (t.slotFor rule).outbox
  retired : ∀ rule, (t'.slotFor rule).retired = (t.slotFor rule).retired
  print : ∀ rule, (t'.slotFor rule).state.fingerprint = (t.slotFor rule).state.fingerprint ∨
    ∃ r, Rule.inForce rules rule = some r ∧ (t'.slotFor rule).state.fingerprint = some r.fingerprint
  stays : ∀ {rule id}, t.find? rule = some id → t'.find? rule = some id
  known : ∀ {rule id}, t'.find? rule = some id → t.find? rule = some id ∨ ∃ r, Rule.inForce rules rule = some r

/-- The engine does something that no rule and no store notices. -/
structure World.Rests (rules : List Rule) (w w' : World) : Prop where
  tracker : w.engine.tracker.Rests rules w'.engine.tracker
  loaded : w'.engine.rules.snapshot = w.engine.rules.snapshot ∨
    ∃ generation time, w'.engine.rules.snapshot = .build rules generation time
  valid : w'.engine.rules.invalidated = w.engine.rules.invalidated
  source : w'.source.fetch = w.source.fetch
  sink : w'.sink = w.sink
  ids : w'.ids = w.ids
  buried : w'.engine.deadLetters = w.engine.deadLetters
  clock : w.clock ≤ w'.clock
  samples : w'.engine.stats.samples = w.engine.stats.samples

/-- Whatever happens, it is no business of some rules. -/
structure World.Retains (mine : RuleId → Prop) (w w' : World) : Prop where
  stays : ∀ {rule id}, w.engine.tracker.find? rule = some id → w'.engine.tracker.find? rule = some id
  clock : w.clock ≤ w'.clock
  phase : ∀ {rule}, mine rule → (w'.firing rule).phase = (w.firing rule).phase
  held : ∀ {id a}, mine a.ruleId → w'.sink.store.get? id = some a →
    ∃ b, w.sink.store.get? id = some b ∧ b.ruleId = a.ruleId
  shown : ∀ {id a}, mine a.ruleId → a.isOpen = true →
    (w'.sink.store.get? id = some a ↔ w.sink.store.get? id = some a)

theorem World.Retains.refl (mine : RuleId → Prop) (w : World) : w.Retains mine w :=
  ⟨id, Nat.le_refl _, fun _ => rfl, fun _ there => ⟨_, there, rfl⟩, fun _ _ => Iff.rfl⟩

theorem World.Retains.trans {mine : RuleId → Prop} {w₁ w₂ w₃ : World} (h : w₁.Retains mine w₂)
    (h' : w₂.Retains mine w₃) : w₁.Retains mine w₃ := by
  refine ⟨fun found => h'.stays (h.stays found), Nat.le_trans h.clock h'.clock,
    fun own => (h'.phase own).trans (h.phase own), fun own there => ?_,
    fun own isOpen => (h'.shown own isOpen).trans (h.shown own isOpen)⟩
  obtain ⟨b, there', named⟩ := h'.held own there
  obtain ⟨c, there'', named'⟩ := h.held (named ▸ own) there'
  exact ⟨c, there'', named'.trans named⟩

/-- Whoever works under this pact leaves a calm world calm, and only `mine` is his business. If he is `steady`
nobody begins to take a sample in the meantime; he does not himself. -/
def Pact.calm (rules : List Rule) (mine : RuleId → Prop) (steady : Prop) : Pact where
  others w w' := w'.AtPeace rules ∧ w.Retains mine w' ∧
    (steady → w'.engine.stats.samples = w.engine.stats.samples)
  self w w' := w.AtPeace rules → w'.AtPeace rules ∧ w.Retains (fun rule => ¬ mine rule) w' ∧
    w'.engine.stats.samples = w.engine.stats.samples
  still w calm := ⟨calm, .refl _ w, rfl⟩
  goesOn h h' calm := by
    obtain ⟨calm₁, retains, same⟩ := h calm
    obtain ⟨calm₂, retains', same'⟩ := h' calm₁
    exact ⟨calm₂, retains.trans retains', same'.trans same⟩

section Calm

variable {rules : List Rule} {mine mine' : RuleId → Prop} {steady : Prop} {t t' t₁ t₂ t₃ : Tracker}
  {w w' w₁ w₂ w₃ : World} {rule : RuleId} {id : SlotId} {ticket : Ticket} {r : Rule}

theorem Rule.inForce_id (known : inForce rules rule = some r) : r.id = rule := by
  have enabled := List.find?_some known
  simp only [Bool.and_eq_true, decide_eq_true_eq] at enabled
  exact enabled.2

namespace Tracker

theorem Rests.refl (coherent : t.Coherent) : t.Rests rules t :=
  ⟨coherent, fun _ => rfl, fun _ => rfl, fun _ => rfl, fun _ => .inl rfl, id, .inl⟩

theorem Rests.trans (h : Rests rules t₁ t₂) (h' : Rests rules t₂ t₃) : Rests rules t₁ t₃ where
  coherent := h'.coherent
  phase rule := (h'.phase rule).trans (h.phase rule)
  outbox rule := (h'.outbox rule).trans (h.outbox rule)
  retired rule := (h'.retired rule).trans (h.retired rule)
  print rule := by
    rcases h'.print rule with same | adopted
    · exact (h.print rule).imp same.trans fun ⟨r, known, now⟩ => ⟨r, known, same.trans now⟩
    · exact .inr adopted
  stays found := h'.stays (h.stays found)
  known found := (h'.known found).elim h.known .inr

theorem Rests.of_alike (coherent : t'.Coherent) (alike : ∀ rule, (t.slotFor rule).Alike (t'.slotFor rule))
    (stays : ∀ {rule id}, t.find? rule = some id → t'.find? rule = some id)
    (known : ∀ {rule id}, t'.find? rule = some id → t.find? rule = some id ∨ ∃ r, Rule.inForce rules rule = some r) :
    t.Rests rules t' :=
  ⟨coherent, fun rule => by rw [(alike rule).state], fun rule => (alike rule).outbox, fun rule => (alike rule).retired,
    fun rule => .inl (by rw [(alike rule).state]), stays, known⟩

theorem Calm.rests (calm : t.Calm rules) (rests : t.Rests rules t') : t'.Calm rules where
  coherent := rests.coherent
  empty rule := (rests.outbox rule).trans (calm.empty rule)
  kept rule := (rests.retired rule).trans (calm.kept rule)
  known found := (rests.known found).elim calm.known fun known => known
  fits {rule r} inForce := by
    rcases rests.print rule with same | ⟨r', known, now⟩
    · intro print mem
      exact calm.fits inForce print (same ▸ mem)
    · obtain rfl := Option.some.inj (inForce.symm.trans known)
      intro print mem
      rw [now] at mem
      exact (Option.some.inj mem).symm

theorem Calm.slot_empty (calm : t.Calm rules) (found : t.find? rule = some id) : (t.slot id).outbox = [] :=
  slotFor_of_find found ▸ calm.empty rule

theorem Calm.slot_kept (calm : t.Calm rules) (found : t.find? rule = some id) : (t.slot id).retired = false :=
  slotFor_of_find found ▸ calm.kept rule

theorem rests_leave (coherent : t.Coherent) (found : t.find? rule = some id) : t.Rests rules (t.leave id) :=
  .of_alike ((resembles_leave (coherent.get found)).coherent coherent) (slotFor_leave coherent id)
    (fun found => (find?_leave t id _).trans found) fun found => .inl ((find?_leave t id _).symm.trans found)

theorem rests_join (coherent : t.Coherent) (found : t.find? rule = some id) (ticket : Ticket) :
    t.Rests rules (t.join id ticket) :=
  .of_alike (coherent_join coherent (coherent.get found)) (slotFor_join coherent id ticket) (fun found => found) .inl

theorem Rewrites.alike (h : t.Rewrites id t') (coherent : t.Coherent) (found : t.find? rule = some id)
    (own : (t.slot id).Alike (t'.slot id)) (rule' : RuleId) : (t.slotFor rule').Alike (t'.slotFor rule') := by
  by_cases same : rule' = rule
  · subst same
    rw [slotFor_of_find found, slotFor_of_find ((h.find? _).trans found)]
    exact own
  · rw [h.slotFor coherent found same]
    exact .refl _

theorem Rewrites.rests (h : t.Rewrites id t') (coherent : t.Coherent) (found : t.find? rule = some id)
    (own : (t.slot id).Alike (t'.slot id)) : t.Rests rules t' :=
  .of_alike (h.coherent coherent (coherent.get found)) (h.alike coherent found own)
    (fun found => (h.find? _).trans found) fun found => .inl ((h.find? _).symm.trans found)

theorem rests_take (calm : t.Calm rules) {c : Claim} (found : t.find? rule = some c.slot) :
    t.Rests rules (t.take c) := by
  refine (rewrites_take t c).rests calm.coherent found ?_
  have kept := calm.slot_kept found
  rw [take]
  cases c.mode with
  | create =>
    rw [slot_update]
    exact ⟨rfl, rfl, kept.symm⟩
  | existing => exact .refl _

theorem slotFor_setState (state : FiringState) (coherent : t.Coherent) (found : t.find? rule = some id)
    (named : state.ruleId = (t.slot id).state.ruleId) (rule' : RuleId) :
    (t.setState id state).slotFor rule' =
      if rule' = rule then { t.slotFor rule with state } else t.slotFor rule' := by
  have rewrites : t.Rewrites id (t.setState id state) := rewrites_setState named
  by_cases same : rule' = rule
  · rw [if_pos same, same, slotFor_of_find found, slotFor_of_find ((rewrites.find? _).trans found)]
    exact slot_update t id _
  · rw [if_neg same]
    exact rewrites.slotFor coherent found same

theorem rests_adopt (coherent : t.Coherent) (found : t.find? rule = some id)
    (known : Rule.inForce rules rule = some r) : t.Rests rules (t.setState id ((t.slot id).state.adopt r)) := by
  have rewrites : t.Rewrites id (t.setState id ((t.slot id).state.adopt r)) := rewrites_setState rfl
  have slots := slotFor_setState ((t.slot id).state.adopt r) coherent found rfl
  have state : (t.slot id).state = (t.slotFor rule).state := by rw [slotFor_of_find found]
  rw [state] at slots rewrites ⊢
  refine ⟨rewrites.coherent coherent (coherent.get found), fun rule' => ?_, fun rule' => ?_, fun rule' => ?_,
    fun rule' => ?_, fun found => (rewrites.find? _).trans found,
    fun found => .inl ((rewrites.find? _).symm.trans found)⟩
  all_goals
    rw [slots]
    split
    · next same =>
      subst same
      first | rfl | exact .inr ⟨r, known, rfl⟩
    · first | rfl | exact .inl rfl

/-- A rule that is in force may be tracked. -/
theorem rests_request (calm : t.Calm rules) (ticket : Ticket) (mode : Acquire)
    (known : mode = .create → ∃ r, Rule.inForce rules rule = some r) :
    t.Rests rules (t.request ticket rule mode).1 := by
  obtain ⟨shifts, -, -, -⟩ := request_spec calm.coherent ticket rule mode
  refine .of_alike shifts.coherent shifts.alike shifts.stays fun {rule' id} found => ?_
  cases mode with
  | create =>
    by_cases same : rule' = rule
    · exact .inr (same ▸ known rfl)
    · exact .inl ((find?_ensure_other t same).symm.trans found)
  | existing =>
    refine .inl ?_
    rw [request] at found
    cases here : t.find? rule with
    | none =>
      rw [here] at found
      exact found
    | some id =>
      rw [here] at found
      exact found

end Tracker

namespace World

theorem Rests.refl (calm : w.AtPeace rules) : w.Rests rules w :=
  ⟨.refl calm.tracker.coherent, .inl rfl, rfl, rfl, rfl, rfl, rfl, Nat.le_refl _, rfl⟩

theorem Rests.trans (h : Rests rules w₁ w₂) (h' : Rests rules w₂ w₃) : Rests rules w₁ w₃ where
  tracker := h.tracker.trans h'.tracker
  loaded := h'.loaded.elim (fun same => same ▸ h.loaded) .inr
  valid := h'.valid.trans h.valid
  source := h'.source.trans h.source
  sink := h'.sink.trans h.sink
  ids := h'.ids.trans h.ids
  buried := h'.buried.trans h.buried
  clock := Nat.le_trans h.clock h'.clock
  samples := h'.samples.trans h.samples

theorem Rests.openAlertId (h : w.Rests rules w') (rule : RuleId) :
    (w'.firing rule).openAlertId = (w.firing rule).openAlertId := by
  have same : (w'.firing rule).phase = (w.firing rule).phase := h.tracker.phase rule
  rw [FiringState.openAlertId, same, FiringState.openAlertId]

theorem AtPeace.rests (calm : w.AtPeace rules) (rests : w.Rests rules w') : w'.AtPeace rules where
  loaded := rests.loaded.elim (fun same => same ▸ calm.loaded) id
  valid := rests.valid.trans calm.valid
  source := rests.source.trans calm.source
  tracker := calm.tracker.rests rests.tracker
  plain := rests.sink ▸ calm.plain
  store := by
    rw [rests.sink, rests.ids, funext rests.openAlertId]
    exact calm.store
  unburied := rests.buried ▸ calm.unburied

theorem Retains.mono (h : w.Retains mine w') (fewer : ∀ {rule}, mine' rule → mine rule) : w.Retains mine' w' :=
  ⟨h.stays, h.clock, fun own => h.phase (fewer own), fun own => h.held (fewer own), fun own => h.shown (fewer own)⟩

theorem Rests.retains (rests : w.Rests rules w') (mine : RuleId → Prop) : w.Retains mine w' :=
  ⟨rests.tracker.stays, rests.clock, fun _ => rests.tracker.phase _, fun _ there => ⟨_, rests.sink ▸ there, rfl⟩,
    fun _ _ => by rw [rests.sink]⟩

theorem Rests.of_tracker (tracker : w.engine.tracker.Rests rules w'.engine.tracker)
    (engine : w'.engine = { w.engine with tracker := w'.engine.tracker }) (source : w'.source = w.source)
    (sink : w'.sink = w.sink) (ids : w'.ids = w.ids) (clock : w'.clock = w.clock) : w.Rests rules w' :=
  ⟨tracker, by rw [engine]; exact .inl rfl, by rw [engine], by rw [source], sink, ids, by rw [engine],
    Nat.le_of_eq (congrArg Duration.nanos clock.symm), by rw [engine]⟩

theorem AtPeace.aside (calm : w.AtPeace rules) (tracker : w'.engine.tracker = w.engine.tracker)
    (loaded : w'.engine.rules.snapshot = w.engine.rules.snapshot)
    (valid : w'.engine.rules.invalidated = w.engine.rules.invalidated) (source : w'.source.fetch = w.source.fetch)
    (sink : w'.sink = w.sink) (ids : w'.ids = w.ids) (buried : w'.engine.deadLetters = w.engine.deadLetters)
    (clock : w.clock ≤ w'.clock) (samples : w'.engine.stats.samples = w.engine.stats.samples) : w.Rests rules w' :=
  ⟨by rw [tracker]; exact .refl calm.tracker.coherent, .inl loaded, valid, source, sink, ids, buried, clock, samples⟩

theorem AtPeace.rests_leave (calm : w.AtPeace rules) (found : w.engine.tracker.find? rule = some id) :
    w.Rests rules (w.leave id) :=
  .of_tracker (Tracker.rests_leave calm.tracker.coherent found) rfl rfl rfl rfl rfl

theorem AtPeace.rests_release (calm : w.AtPeace rules) (found : w.engine.tracker.find? rule = some id) :
    w.Rests rules (w.release id) := by
  have same : (w.engine.tracker.release id).1 = w.engine.tracker.leave id :=
    congrArg Prod.fst (Tracker.release_of_kept (.inl (calm.tracker.slot_kept found)))
  refine .of_tracker ?_ rfl rfl rfl rfl rfl
  change Tracker.Rests rules _ (w.engine.tracker.release id).1
  rw [same]
  exact Tracker.rests_leave calm.tracker.coherent found

/-- A state that fits the definition of its rule takes its fingerprint, and nothing else comes of it. -/
theorem AtPeace.sync (calm : w.AtPeace rules) (found : w.engine.tracker.find? rule = some id)
    (known : Rule.inForce rules rule = some r) (time : Timestamp) :
    (w.change id (.sync r time)).2 = none ∧ w.Rests rules (w.change id (.sync r time)).1 := by
  have fits : (w.slot id).state.Fits r := by
    have known := calm.tracker.fits known
    rwa [Tracker.slotFor_of_find found] at known
  have applied : (w.slot id).state.apply (.sync r time) =
      ((w.slot id).state.adopt r, none) := FiringState.syncRule_of_fits fits time
  have changed : w.engine.tracker.change id (.sync r time) =
      (w.engine.tracker.setState id ((w.slot id).state.adopt r), none) := by
    rw [Tracker.change, show (w.engine.tracker.slot id).state = (w.slot id).state from rfl, applied]
  have same : w.change id (.sync r time) = (w.onTracker (·.setState id ((w.slot id).state.adopt r)), none) := by
    rw [change, changed]
    rfl
  rw [same]
  exact ⟨rfl, .of_tracker (Tracker.rests_adopt calm.tracker.coherent found known) rfl rfl rfl rfl rfl⟩

end World

/-! ### Requests -/

def Pact.Leaves (pact : Pact) (P : World → Prop) : Prop :=
  ∀ ⦃w w'⦄, P w → pact.others w w' → P w'

section Requests

variable {P : World → Prop} {c : Claim}

theorem Pact.calm_self (rests : w.AtPeace rules → w.Rests rules w') : (Pact.calm rules mine steady).self w w' :=
  fun calm => ⟨calm.rests (rests calm), (rests calm).retains _, (rests calm).samples⟩

theorem World.AtPeace.others (calm : w.AtPeace rules) (rests : w.Rests rules w') :
    (Pact.calm rules mine steady).others w w' :=
  ⟨calm.rests rests, rests.retains mine, fun _ => rests.samples⟩

theorem Pact.Leaves.rests (lasting : (Pact.calm rules mine steady).Leaves P) (here : w.AtPeace rules ∧ P w)
    (rests : w.Rests rules w') : w'.AtPeace rules ∧ P w' :=
  ⟨here.1.rests rests, lasting here.2 (here.1.others rests)⟩

theorem Pact.Leaves.others (lasting : (Pact.calm rules mine steady).Leaves P) (here : w.AtPeace rules ∧ P w)
    (others : (Pact.calm rules mine steady).others w w') : w'.AtPeace rules ∧ P w' :=
  ⟨others.1, lasting here.2 others⟩

theorem Pact.leaves_true : (Pact.calm rules mine steady).Leaves fun _ => True :=
  fun _ _ _ _ => trivial

theorem Pact.Leaves.and {pact : Pact} {Q : World → Prop} (h : pact.Leaves P) (h' : pact.Leaves Q) :
    pact.Leaves fun w => P w ∧ Q w :=
  fun _ _ both others => ⟨h both.1 others, h' both.2 others⟩

theorem World.AtPeace.rests_claim (calm : w.AtPeace rules) (ticket : Ticket) (mode : Acquire)
    (known : mode = .create → ∃ r, Rule.inForce rules rule = some r) :
    w.Rests rules (Request.claim w.takeTicket.1 ticket rule mode).1 :=
  .of_tracker (Tracker.rests_request calm.tracker ticket mode known) rfl rfl rfl rfl rfl

theorem World.AtPeace.rests_moved (calm : w.AtPeace rules) : w.Rests rules w.moved :=
  calm.aside rfl rfl rfl rfl rfl rfl rfl (Nat.le_refl _) rfl

theorem World.AtPeace.pollClaim (calm : w.AtPeace rules) (found : w.engine.tracker.find? rule = some c.slot) :
    Request.pollClaim w c = (w, .waiting c) ∨
      Request.pollClaim w c = (w.onTracker (·.take c), .granted c.slot) := by
  have attached := calm.tracker.coherent.attached found
  rw [Request.pollClaim]
  cases w.engine.tracker.holds c.slot c.ticket with
  | false => exact .inl rfl
  | true => exact .inr (by simp [attached])

theorem Pact.Leaves.granted (lasting : (Pact.calm rules mine steady).Leaves P) (here : w.AtPeace rules ∧ P w)
    (found : w.engine.tracker.find? rule = some c.slot) :
    (Pact.calm rules mine steady).self w (w.onTracker (·.take c)).moved ∧
      ((w.onTracker (·.take c)).moved.AtPeace rules ∧ P (w.onTracker (·.take c)).moved) ∧
      (w.onTracker (·.take c)).moved.engine.tracker.find? rule = some c.slot := by
  have rests : w.Rests rules (w.onTracker (·.take c)).moved :=
    .of_tracker (Tracker.rests_take here.1.tracker found) rfl rfl rfl rfl rfl
  exact ⟨Pact.calm_self fun _ => rests, lasting.rests here rests, rests.tracker.stays found⟩

theorem Request.calm_slot (lasting : (Pact.calm rules mine steady).Leaves P) (here : w.AtPeace rules ∧ P w)
    (known : Rule.inForce rules rule = some r) :
    (Request.slot rule).Handled (Pact.calm rules mine steady) w fun id w' =>
      (w'.AtPeace rules ∧ P w') ∧ w'.engine.tracker.find? rule = some id := by
  have rests : w.Rests rules (claim w.takeTicket.1 w.takeTicket.2 rule .create).1 :=
    here.1.rests_claim _ .create fun _ => ⟨r, known⟩
  obtain ⟨-, claimed, absent, -⟩ :=
    Tracker.request_spec here.1.tracker.coherent w.takeTicket.2 rule .create
  refine ⟨Pact.calm_self fun _ => rests, fun w' wait => (w'.AtPeace rules ∧ P w') ∧
    ∃ c, wait = some c ∧ w'.engine.tracker.find? rule = some c.slot, ⟨lasting.rests here rests, ?_⟩, ?_, ?_, ?_⟩
  · cases made : (w.engine.tracker.request w.takeTicket.2 rule .create).2 with
    | none => exact absurd (absent made).1 (by simp)
    | some c =>
      obtain ⟨-, -, -, -, found⟩ := claimed made
      exact ⟨c, made, found⟩
  · rintro w' w'' wait ⟨there, c, waits, found⟩ others
    exact ⟨lasting.others there others, c, waits, others.2.1.stays found⟩
  · rintro w' w'' wait wait' ⟨there, c, rfl, found⟩ polled
    rw [poll] at polled
    rcases there.1.pollClaim found with same | same
    · rw [same] at polled
      obtain ⟨rfl, waits⟩ := Prod.mk.inj polled
      obtain rfl := Progress.waiting.inj waits
      exact ⟨Pact.calm_self fun calm => .refl calm, there, c, rfl, found⟩
    · rw [same] at polled
      exact absurd (Prod.mk.inj polled).2 (by simp)
  · rintro w' w'' wait id ⟨there, c, rfl, found⟩ polled
    rw [poll] at polled
    rcases there.1.pollClaim found with same | same
    · rw [same] at polled
      exact absurd (Prod.mk.inj polled).2 (by simp)
    · rw [same] at polled
      obtain ⟨rfl, got⟩ := Prod.mk.inj polled
      obtain rfl := Progress.answered.inj got
      exact lasting.granted there found

theorem Request.calm_existingSlot (lasting : (Pact.calm rules mine steady).Leaves P) (here : w.AtPeace rules ∧ P w) :
    (Request.existingSlot rule).Handled (Pact.calm rules mine steady) w fun answer w' =>
      (w'.AtPeace rules ∧ P w') ∧ ∀ id ∈ answer, w'.engine.tracker.find? rule = some id := by
  have rests : w.Rests rules (claim w.takeTicket.1 w.takeTicket.2 rule .existing).1 :=
    here.1.rests_claim _ .existing (by simp)
  obtain ⟨-, claimed, -, -⟩ := Tracker.request_spec here.1.tracker.coherent w.takeTicket.2 rule .existing
  refine ⟨Pact.calm_self fun _ => rests, fun w' wait => (w'.AtPeace rules ∧ P w') ∧
    ∀ c ∈ (wait : Option Claim), w'.engine.tracker.find? rule = some c.slot,
    ⟨lasting.rests here rests, fun c made => (claimed made).2.2.2.2⟩, ?_, ?_, ?_⟩
  · rintro w' w'' wait ⟨there, found⟩ others
    exact ⟨lasting.others there others, fun c waits => others.2.1.stays (found c waits)⟩
  · rintro w' w'' (_ | c) wait' ⟨there, found⟩ polled
    · exact absurd (Prod.mk.inj polled).2 (by simp)
    · rw [poll] at polled
      rcases there.1.pollClaim (found c rfl) with same | same
      · rw [same] at polled
        obtain ⟨rfl, waits⟩ := Prod.mk.inj polled
        obtain rfl := Progress.waiting.inj waits
        exact ⟨Pact.calm_self fun calm => .refl calm, there, found⟩
      · rw [same] at polled
        exact absurd (Prod.mk.inj polled).2 (by simp)
  · rintro w' w'' (_ | c) answer ⟨there, found⟩ polled
    · obtain ⟨rfl, got⟩ := Prod.mk.inj polled
      obtain rfl := Progress.answered.inj got
      exact ⟨Pact.calm_self fun calm => calm.rests_moved, lasting.rests there there.1.rests_moved, by simp⟩
    · rw [poll] at polled
      rcases there.1.pollClaim (found c rfl) with same | same
      · rw [same] at polled
        exact absurd (Prod.mk.inj polled).2 (by simp)
      · rw [same] at polled
        obtain ⟨rfl, got⟩ := Prod.mk.inj polled
        obtain rfl := Progress.answered.inj got
        obtain ⟨self, there', found'⟩ := lasting.granted there (found c rfl)
        refine ⟨self, there', fun id mem => ?_⟩
        obtain rfl := Option.some.inj mem
        exact found'

theorem Request.calm_knownSlot (lasting : (Pact.calm rules mine steady).Leaves P) (here : w.AtPeace rules ∧ P w)
    (found : w.engine.tracker.find? rule = some id) :
    (Request.knownSlot id).Handled (Pact.calm rules mine steady) w fun answer w' =>
      answer = true ∧ (w'.AtPeace rules ∧ P w') ∧ w'.engine.tracker.find? rule = some id := by
  have contains {t : Tracker} (coherent : t.Coherent) (found : t.find? rule = some id) :
      t.slots.contains id = true := by
    rw [Std.TreeMap.contains_eq_isSome_getElem?, coherent.get found]
    rfl
  have rests : w.Rests rules ((Request.knownSlot id).start w.takeTicket.2 w.takeTicket.1).1 := by
    have there : w.takeTicket.1.engine.tracker.slots.contains id = true := contains here.1.tracker.coherent found
    rw [start, if_pos there]
    exact .of_tracker (Tracker.rests_join here.1.tracker.coherent found _) rfl rfl rfl rfl rfl
  refine ⟨Pact.calm_self fun _ => rests, fun w' _ => (w'.AtPeace rules ∧ P w') ∧
    w'.engine.tracker.find? rule = some id, ⟨lasting.rests here rests, rests.tracker.stays found⟩, ?_, ?_, ?_⟩
  · rintro w' w'' wait ⟨there, found⟩ others
    exact ⟨lasting.others there others, others.2.1.stays found⟩
  all_goals
    rintro w' w'' wait out ⟨there, found⟩ polled
    have attached : (w'.slot id).detached = false := there.1.tracker.coherent.attached found
    simp only [poll, contains there.1.tracker.coherent found, attached, Bool.not_true, Bool.false_eq_true, if_false]
      at polled
  · split at polled
    · exact absurd (Prod.mk.inj polled).2 (by simp)
    · obtain ⟨rfl, -⟩ := Prod.mk.inj polled
      exact ⟨Pact.calm_self fun calm => .refl calm, there, found⟩
  · split at polled
    · obtain ⟨rfl, got⟩ := Prod.mk.inj polled
      obtain rfl := Progress.answered.inj got
      exact ⟨Pact.calm_self fun calm => calm.rests_moved, rfl, lasting.rests there there.1.rests_moved, found⟩
    · exact absurd (Prod.mk.inj polled).2 (by simp)

theorem Request.calm_refreshTurn (lasting : (Pact.calm rules mine steady).Leaves P) (here : w.AtPeace rules ∧ P w) :
    Request.refreshTurn.Handled (Pact.calm rules mine steady) w fun _ w' => w'.AtPeace rules ∧ P w' := by
  have rests : w.Rests rules (Request.refreshTurn.start w.takeTicket.2 w.takeTicket.1).1 :=
    here.1.aside rfl rfl rfl rfl rfl rfl rfl (Nat.le_refl _) rfl
  refine ⟨Pact.calm_self fun _ => rests, fun w' _ => w'.AtPeace rules ∧ P w', lasting.rests here rests,
    lasting.others, ?_, ?_⟩
  all_goals
    rintro w' w'' wait out there polled
    rw [poll] at polled
    split at polled
  · exact absurd (Prod.mk.inj polled).2 (by simp)
  · obtain ⟨rfl, -⟩ := Prod.mk.inj polled
    exact ⟨Pact.calm_self fun calm => .refl calm, there⟩
  · obtain ⟨rfl, -⟩ := Prod.mk.inj polled
    exact ⟨Pact.calm_self fun calm => calm.rests_moved, lasting.rests there there.1.rests_moved⟩
  · exact absurd (Prod.mk.inj polled).2 (by simp)

theorem RuleSource.rules_of_fetch {s : RuleSource} (served : s.fetch = .ok rules) : s.contents.rules = .ok rules := by
  rw [fetch] at served
  split at served
  · exact absurd served (by simp)
  · exact served

theorem Request.calm_fetch (lasting : (Pact.calm rules mine steady).Leaves P) (here : w.AtPeace rules ∧ P w) :
    Request.fetch.Handled (Pact.calm rules mine steady) w fun answer w' =>
      answer = .ok rules ∧ w'.AtPeace rules ∧ P w' := by
  have rests : w.Rests rules (Request.fetch.start w.takeTicket.2 w.takeTicket.1).1 :=
    here.1.aside rfl rfl rfl rfl rfl rfl rfl (Nat.le_refl _) rfl
  refine ⟨Pact.calm_self fun _ => rests, fun w' _ => w'.AtPeace rules ∧ P w', lasting.rests here rests,
    lasting.others, ?_, ?_⟩
  · rintro w' w'' f f' there polled
    have same : w'' = w' := by
      rw [poll] at polled
      split at polled
      · exact (Prod.mk.inj polled).1.symm
      · split at polled <;> split at polled
        · exact (Prod.mk.inj polled).1.symm
        · exact absurd (Prod.mk.inj polled).2 (by simp)
        · exact absurd (Prod.mk.inj polled).2 (by simp)
        · exact (Prod.mk.inj polled).1.symm
    subst same
    exact ⟨Pact.calm_self fun calm => .refl calm, there⟩
  · rintro w' w'' f out there polled
    have answered : fetch.answer w' (.ok rules) = (w'', .answered out) := by
      rw [poll] at polled
      split at polled
      · exact absurd (Prod.mk.inj polled).2 (by simp)
      · split at polled <;> split at polled
        · exact absurd (Prod.mk.inj polled).2 (by simp)
        · rwa [there.1.source] at polled
        · rwa [RuleSource.rules_of_fetch there.1.source] at polled
        · exact absurd (Prod.mk.inj polled).2 (by simp)
    obtain ⟨rfl, got⟩ := Prod.mk.inj answered
    obtain rfl := Progress.answered.inj got
    exact ⟨Pact.calm_self fun calm => calm.rests_moved, rfl, lasting.rests there there.1.rests_moved⟩

end Requests

end Calm

end ThresholdAlerts
