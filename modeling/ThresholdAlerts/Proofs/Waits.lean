import ThresholdAlerts.Proofs.Interleaving
import ThresholdAlerts.Proofs.Order
/-! Waits: what a call that follows the conduct may count on from the moment it makes a request until it
has the answer. Main statements: making a request and polling it are moves of the call, and whenever
the answer comes, the call goes on as it has to be able to. -/
namespace ThresholdAlerts

/-- What a call waits for, and how it goes on with any answer. -/
def Request.Awaits (regime : Regime) : (r : Request) → r.Wait → Stance → World →
    (r.Answer → Stance → World → Prop) → Prop
  | .slot rule, some c, σ, w, next => σ = .queued c ∧ c.rule = rule ∧ c.mode = .create ∧
      ∀ w' id ticket, w.Relies regime w' → (w'.slot id).retired = false →
        next id (.holding rule id ticket {}) w'
  | .slot _, none, _, _, _ => False
  | .existingSlot rule, some c, σ, w, next => σ = .queued c ∧ c.rule = rule ∧
      ∀ w', w.Relies regime w' → (w'.engine.tracker.find? rule = none → next none .free w') ∧
        ∀ id ticket, (w'.slot id).outbox.Ripe w'.clock → (w'.slot id).Tidy →
          next (some id) (.holding rule id ticket {}) w'
  | .existingSlot _, none, _, _, _ => False
  | .knownSlot id, ticket, σ, w, next =>
      ((∃ rule, σ = .queued { ticket, rule, mode := .existing, slot := id }) ∨
        σ = .free ∧ id < w.engine.tracker.nextSlot ∧ w.engine.tracker.slots[id]? = none) ∧
      ∀ w', w.Relies regime w' → w.engine.tracker.Ages w'.engine.tracker →
        next false .free w' ∧ ∀ rule ticket, (w'.slot id).Tidy → next true (.holding rule id ticket {}) w'
  | .deliver event, (flight, _), σ, w, next =>
      ∃ rule id ticket, ∃ attempt : Attempt, σ = .holding rule id ticket (attempt.sending event flight) ∧
        attempt.Fits event (w.slot id).outbox ∧ attempt.GoesOn regime rule id ticket event w next
  | .refreshTurn, ticket, σ, w, next =>
      σ = .awaiting ticket ∧ ∀ w', w.Relies regime w' → next () (.refreshing ticket) w'
  | .fetch, _, σ, w, next => ∃ ticket, σ = .refreshing ticket ∧
      ∀ answer w', w.Relies regime w' → next answer (.refreshing ticket) w'
  | .findOpen _, _, σ, w, next => σ = .free ∧ ∀ answers w', w.Relies regime w' → next answers .free w'
  | .findAll, _, σ, w, next => σ = .free ∧ ∀ answer w', w.Relies regime w' → next answer .free w'
  | .sleep _, _, _, _, _ => False

/-- What is known of the stance of one call, whatever it does but get the slot of a barred rule: its moves
keep it. -/
structure Surroundings (regime : Regime) (barred : RuleId → Prop) (E : Stance → World → Prop) : Prop where
  coherent : ∀ {σ w}, E σ w → w.engine.tracker.Coherent
  stands : ∀ {σ w}, E σ w → σ.Stands w
  ripe : ∀ {σ w}, E σ w → ∀ rule, (w.account rule).outbox.Ripe w.clock
  tidy : ∀ {c w}, E (.queued c) w → w.engine.tracker.find? c.rule = some c.slot →
    (w.slot c.slot).queue.head? = some c.ticket → (w.slot c.slot).Tidy
  move : ∀ {σ σ' w w'}, E σ w → Stance.Moves regime w σ w' σ' → σ.Spares barred σ' → E σ' w'

variable {regime : Regime} {barred : RuleId → Prop} {E : Stance → World → Prop} {σ : Stance} {w w' : World}

theorem Surroundings.chore (env : Surroundings regime barred E) (e : E σ w) (chore : w.Chore regime w')
    (turns : w'.turns = w.turns) : E σ w' :=
  env.move e (.chore chore turns) (by cases σ <;> trivial)

theorem Surroundings.works (env : Surroundings regime barred E) {rule : RuleId} {id : SlotId} {ticket : Ticket}
    {work : Work} {x : Option Work} (e : E (.holding rule id ticket work) w)
    (happens : Happens regime rule id w (some work) w' x) : E (.after rule id ticket x) w' :=
  env.move e (.works happens) trivial

theorem Surroundings.ripe_held (env : Surroundings regime barred E) {rule : RuleId} {id : SlotId}
    {ticket : Ticket} {work : Work} (e : E (.holding rule id ticket work) w) :
    (w.slot id).outbox.Ripe w.clock := by
  have ripe := env.ripe e rule
  rwa [World.account_of_find (env.stands e).1] at ripe

theorem Attempt.GoesOn.later {attempt : Attempt} {rule : RuleId} {id : SlotId} {ticket : Ticket}
    {event : Event} {next : Except SinkError Unit → Stance → World → Prop}
    (h : attempt.GoesOn regime rule id ticket event w next) (relies : w.Relies regime w')
    (alike : (w.slot id).Alike (w'.slot id)) : attempt.GoesOn regime rule id ticket event w' next :=
  fun w'' relies' alike' => h w'' (relies.trans relies') (alike.trans alike')

theorem Request.Awaits.later {r : Request} {wait : r.Wait}
    {next : r.Answer → Stance → World → Prop} (h : r.Awaits regime wait σ w next)
    (relies : w.Relies regime w') (ages : w.engine.tracker.Ages w'.engine.tracker)
    (undisturbed : σ.Undisturbed w w') : r.Awaits regime wait σ w' next := by
  cases r with
  | slot rule =>
      cases wait with
      | none => exact h.elim
      | some c =>
          obtain ⟨here, named, mode, goes⟩ := h
          exact ⟨here, named, mode, fun w'' id ticket relies' => goes w'' id ticket (relies.trans relies')⟩
  | existingSlot rule =>
      cases wait with
      | none => exact h.elim
      | some c =>
          obtain ⟨here, named, goes⟩ := h
          exact ⟨here, named, fun w'' relies' => goes w'' (relies.trans relies')⟩
  | knownSlot id =>
      obtain ⟨place, goes⟩ := h
      refine ⟨place.imp_right fun ⟨free, below, gone⟩ => ⟨free, ?_, ages.gone below gone⟩,
        fun w'' relies' ages' => goes w'' (relies.trans relies') (ages.trans ages')⟩
      exact Nat.lt_of_lt_of_le below ages.nextSlot
  | deliver event =>
      obtain ⟨flight, limit⟩ := wait
      obtain ⟨rule, id, ticket, attempt, rfl, fits, goes⟩ := h
      exact ⟨rule, id, ticket, attempt, rfl, undisturbed.outbox.symm ▸ fits,
        goes.later relies undisturbed⟩
  | refreshTurn => exact ⟨h.1, fun w'' relies' => h.2 w'' (relies.trans relies')⟩
  | fetch =>
      obtain ⟨ticket, here, goes⟩ := h
      exact ⟨ticket, here, fun a w'' relies' => goes a w'' (relies.trans relies')⟩
  | sleep span => exact h.elim
  | _ => exact ⟨h.1, fun a w'' relies' => h.2 a w'' (relies.trans relies')⟩

/-! ### Slots -/

theorem chore_takeTicket : w.Chore regime w.takeTicket.1 :=
  ⟨⟨rfl, rfl, .refl _, rfl, rfl, Nat.le_succ _, rfl, rfl, rfl⟩,
    .of_same rfl, rfl, rfl, rfl, .refl _⟩

theorem chore_moved : w.Chore regime w.moved :=
  ⟨⟨rfl, rfl, .refl _, rfl, rfl, Nat.le_succ _, rfl, rfl, rfl⟩,
    .of_same rfl, rfl, rfl, rfl, .refl _⟩

theorem shuffles_claim {ticket : Ticket} (c : w.engine.tracker.Coherent) (rule : RuleId)
    (mode : Acquire) : w.Shuffles ticket (Request.claim w ticket rule mode).1 :=
  ⟨⟨rfl, rfl, .refl _, rfl, rfl, Nat.le_refl _, rfl, rfl, rfl⟩,
    (Tracker.request_spec c ticket rule mode).shifts, rfl⟩

theorem World.Shuffles.trans {ticket : Ticket} {w₁ w₂ w₃ : World} (h : w₁.Shuffles ticket w₂)
    (h' : w₂.Shuffles ticket w₃) : w₁.Shuffles ticket w₃ := by
  exact ⟨h.aside.trans h'.aside, h.shifts.trans h'.shifts, h'.rules.trans h.rules⟩

theorem World.Shuffles.relies {ticket : Ticket} (h : w.Shuffles ticket w') : w.Relies regime w' :=
  .of_rules h.aside.paces.clock h.rules

theorem shuffles_leave {ticket : Ticket} {id : SlotId} (c : w.engine.tracker.Coherent)
    (head : (w.slot id).queue.head? = some ticket) : w.Shuffles ticket (w.leave id) :=
  ⟨⟨rfl, rfl, .refl _, rfl, rfl, Nat.le_refl _, rfl, rfl, rfl⟩,
    Tracker.shifts_leave c head, rfl⟩

theorem acquires_of_holds (env : Surroundings regime barred E) {c : Claim} (e : E (.queued c) w)
    (holds : w.engine.tracker.holds c.slot c.ticket = true)
    (found : w.engine.tracker.find? c.rule = some c.slot) (spares : ¬ barred c.rule) :
    E (.holding c.rule c.slot c.ticket {}) (w.onTracker (·.take c)) := by
  have head : (w.slot c.slot).queue.head? = some c.ticket := by
    rw [Tracker.holds] at holds
    exact of_decide_eq_true holds
  exact env.move e (.acquires found head) spares

theorem kept_of_take {c : Claim} (create : c.mode = .create) :
    ((w.onTracker (·.take c)).slot c.slot).retired = false := by
  have taken : w.engine.tracker.take c =
      w.engine.tracker.update c.slot fun s => { s with retired := false } := by
    rw [Tracker.take, create]
  have slot : (w.onTracker (·.take c)).slot c.slot = { w.slot c.slot with retired := false } :=
    (congrArg (fun t => Tracker.slot t c.slot) taken).trans (Tracker.slot_update _ _ _)
  rw [slot]

theorem tidy_take (c : Claim) (tidy : (w.slot c.slot).Tidy) : ((w.onTracker (·.take c)).slot c.slot).Tidy := by
  cases mode : c.mode with
  | create => exact Slot.tidy_of_kept (kept_of_take mode)
  | existing =>
      have same : w.engine.tracker.take c = w.engine.tracker := by rw [Tracker.take, mode]
      have slot : (w.onTracker (·.take c)).slot c.slot = w.slot c.slot :=
        congrArg (fun t => Tracker.slot t c.slot) same
      rw [slot]
      exact tidy

theorem ruleId_take (coherent : w.engine.tracker.Coherent) {rule : RuleId} (c : Claim)
    (found : w.engine.tracker.find? rule = some c.slot) :
    ((w.onTracker (·.take c)).slot c.slot).ruleId = rule := by
  have rewrites := w.engine.tracker.rewrites_take c
  exact (rewrites.coherent coherent (coherent.get found)).ruleId ((rewrites.find? rule).trans found)

/-! ### What is in slots -/

/-- What is in the slot of a rule. -/
def World.contents (w : World) (rule : RuleId) : FiringState × Outbox :=
  ((w.engine.tracker.slotFor rule).state, (w.engine.tracker.slotFor rule).outbox)

namespace World

variable {rule : RuleId} {id : SlotId}

theorem contents_of_alike (alike : (w.engine.tracker.slotFor rule).Alike (w'.engine.tracker.slotFor rule)) :
    w'.contents rule = w.contents rule := by
  rw [contents, alike.state, alike.outbox, contents]

theorem contents_of_find (found : w.engine.tracker.find? rule = some id) :
    w.contents rule = ((w.slot id).state, (w.slot id).outbox) := by
  rw [contents, Tracker.slotFor_of_find found]
  rfl

theorem contents_of_rewrites (coherent : w.engine.tracker.Coherent) (found : w.engine.tracker.find? rule = some id)
    (f : Tracker → Tracker) (rewrites : w.engine.tracker.Rewrites id (f w.engine.tracker))
    (state : ((w.onTracker f).slot id).state = (w.slot id).state)
    (outbox : ((w.onTracker f).slot id).outbox = (w.slot id).outbox) (rule' : RuleId) :
    (w.onTracker f).contents rule' = w.contents rule' := by
  by_cases own : rule' = rule
  · subst own
    rw [contents_of_find found, ← state, ← outbox]
    exact contents_of_find ((rewrites.find? rule').trans found)
  · have slotFor := rewrites.slotFor coherent found own
    exact congrArg (fun s : Slot => (s.state, s.outbox)) slotFor

theorem contents_take (coherent : w.engine.tracker.Coherent) {c : Claim}
    (found : w.engine.tracker.find? rule = some c.slot) (rule' : RuleId) :
    (w.onTracker (·.take c)).contents rule' = w.contents rule' := by
  have same : ((w.engine.tracker.take c).slot c.slot).state = (w.slot c.slot).state ∧
      ((w.engine.tracker.take c).slot c.slot).outbox = (w.slot c.slot).outbox := by
    rw [Tracker.take]
    cases c.mode with
    | create =>
      have slot := Tracker.slot_update w.engine.tracker c.slot fun s => { s with retired := false }
      have state := congrArg Slot.state slot
      have outbox := congrArg Slot.outbox slot
      exact ⟨state, outbox⟩
    | existing => exact ⟨rfl, rfl⟩
  exact contents_of_rewrites coherent found (·.take c) (w.engine.tracker.rewrites_take c) same.1 same.2 rule'

theorem slot_retire (w : World) (id : SlotId) :
    (w.onTracker (·.retire id)).slot id = { w.slot id with retired := true } :=
  Tracker.slot_update w.engine.tracker id _

theorem contents_retire (coherent : w.engine.tracker.Coherent) (found : w.engine.tracker.find? rule = some id)
    (rule' : RuleId) : (w.onTracker (·.retire id)).contents rule' = w.contents rule' := by
  have state := congrArg Slot.state (w.slot_retire id)
  have outbox := congrArg Slot.outbox (w.slot_retire id)
  exact contents_of_rewrites coherent found (·.retire id) (w.engine.tracker.rewrites_retire id) state outbox rule'

theorem contents_leave (coherent : w.engine.tracker.Coherent) (id : SlotId) (rule : RuleId) :
    (w.leave id).contents rule = w.contents rule :=
  contents_of_alike (Tracker.slotFor_leave coherent id rule)

theorem contents_of_spent (coherent : w.engine.tracker.Coherent) (found : w.engine.tracker.find? rule = some id)
    (retired : (w.slot id).retired = true) (spent : (w.slot id).outbox = []) :
    (w.release id).contents rule = (.initial rule, []) := by
  have gone : (w.release id).engine.tracker.find? rule = none := by
    rw [tracker_release_of_spent retired spent]
    exact (Tracker.find?_leave _ _ _).trans (Tracker.find?_detach coherent found)
  rw [contents, Tracker.slotFor_of_absent gone]
  rfl

end World

theorem World.queue_leave (w : World) (id : SlotId) :
    (w.leave id).queue = Function.update w.queue (.slot id) (w.queue (.slot id)).tail :=
  queue_of_slot (Tracker.queues_leave w.engine.tracker id) rfl

theorem Request.queue_claim (coherent : w.engine.tracker.Coherent) {ticket : Ticket} {rule : RuleId} {mode : Acquire}
    {claimed : Option Claim} (made : (claim w ticket rule mode).2 = claimed) :
    (claim w ticket rule mode).1.queue = claimed.elim w.queue fun c =>
      Function.update w.queue (.slot c.slot) (w.queue (.slot c.slot) ++ [ticket]) := by
  have queues := (Tracker.request_spec coherent ticket rule mode).queues
  rw [show (w.engine.tracker.request ticket rule mode).2 = claimed from made] at queues
  cases claimed with
  | none => exact World.queue_of_same queues rfl
  | some c => exact World.queue_of_slot queues rfl

/-- What a poll of a claim comes to, seen from the queues: the claim waits on, it is granted at the head of
the queue of its rule, or it lapses with the slot. On the way it may have gone over to another slot, if its
rule has got one since. -/
inductive Request.ClaimPolled (w : World) (c : Claim) : World × Request.Grant → Prop
  | waits {w₁ : World} {c' : Claim} (shuffles : w.Shuffles c.ticket w₁)
      (same : c'.ticket = c.ticket ∧ c'.rule = c.rule ∧ c'.mode = c.mode) (queued : w₁.engine.tracker.Queued c')
      (queue : Requeued w.queue (Stance.queued c).spot? (Stance.queued c').spot? w₁.queue) :
      ClaimPolled w c (w₁, .waiting c')
  | granted {w₁ : World} {c' : Claim} (shuffles : w.Shuffles c.ticket w₁)
      (same : c'.ticket = c.ticket ∧ c'.rule = c.rule ∧ c'.mode = c.mode) (queued : w₁.engine.tracker.Queued c')
      (queue : Requeued w.queue (Stance.queued c).spot? (Stance.queued c').spot? w₁.queue)
      (found : w₁.engine.tracker.find? c.rule = some c'.slot)
      (head : (w₁.slot c'.slot).queue.head? = some c.ticket) :
      ClaimPolled w c (w₁.onTracker (·.take c'), .granted c'.slot)
  | lapses {w₁ : World} (shuffles : w.Shuffles c.ticket w₁)
      (queue : Requeued w.queue (Stance.queued c).spot? none w₁.queue) (existing : c.mode = .existing)
      (absent : w₁.engine.tracker.find? c.rule = none) :
      ClaimPolled w c (w₁, .absent)

theorem World.Shuffles.refl (c : w.engine.tracker.Coherent) (ticket : Ticket) : w.Shuffles ticket w :=
  ⟨⟨rfl, rfl, .refl _, rfl, rfl, Nat.le_refl _, rfl, rfl, rfl⟩, .refl ticket c, rfl⟩

theorem World.Shuffles.moved {ticket : Ticket} (h : w.Shuffles ticket w') : w.Shuffles ticket w'.moved :=
  ⟨h.aside.trans ⟨rfl, rfl, .refl _, rfl, rfl, Nat.le_succ _, rfl, rfl, rfl⟩, h.shifts, h.rules⟩

theorem head_of_holds {c : Claim} (holds : w.engine.tracker.holds c.slot c.ticket = true) :
    (w.slot c.slot).queue.head? = some c.ticket := by
  rw [Tracker.holds] at holds
  exact of_decide_eq_true holds

theorem Request.claimPolled (coherent : w.engine.tracker.Coherent) {c : Claim}
    (queued : w.engine.tracker.Queued c) : ClaimPolled w c (pollClaim w c) := by
  have still := World.Shuffles.refl coherent c.ticket
  rw [pollClaim]
  cases holds : w.engine.tracker.holds c.slot c.ticket with
  | false => exact .waits still ⟨rfl, rfl, rfl⟩ queued .stays
  | true =>
      have head := head_of_holds holds
      obtain ⟨s, got, named, -⟩ := queued.waits
      obtain rfl : w.engine.tracker.slot c.slot = s := Tracker.slot_of_get got
      cases detached : (w.engine.tracker.slot c.slot).detached with
      | false => exact .granted still ⟨rfl, rfl, rfl⟩ queued .stays (named ▸ coherent.kept got detached) head
      | true =>
          -- The rule has got another slot meanwhile: the same ticket goes over to the queue of that one.
          have left := shuffles_leave coherent head
          have asked : (w.leave c.slot).Shuffles c.ticket _ :=
            shuffles_claim left.shifts.coherent c.rule c.mode
          have spec := Tracker.request_spec left.shifts.coherent c.ticket c.rule c.mode
          have both := left.trans asked
          have queue := fun claimed => @queue_claim _ left.shifts.coherent c.ticket c.rule c.mode claimed
          generalize claimed : claim (w.leave c.slot) c.ticket c.rule c.mode = result at both queue
          obtain ⟨w', claim⟩ := result
          have tracker : ((w.leave c.slot).engine.tracker.request c.ticket c.rule c.mode).1 =
              w'.engine.tracker := congrArg (fun r => r.1.engine.tracker) claimed
          have made : ((w.leave c.slot).engine.tracker.request c.ticket c.rule c.mode).2 = claim :=
            congrArg Prod.snd claimed
          simp only [Bool.not_true, Bool.false_eq_true, if_false]
          have queue' := queue claim rfl
          cases claim with
          | none =>
              have lapses : Requeued w.queue (Stance.queued c).spot? none w'.queue := by
                rw [show w'.queue = _ from queue', Option.elim_none, w.queue_leave]
                exact .leaves head
              exact .lapses both lapses (spec.absent made).1 (tracker ▸ (spec.absent made).2)
          | some c' =>
              obtain ⟨ticket, rule, mode, queued', found⟩ := spec.claimed made
              rw [tracker] at queued' found
              have goes : Requeued w.queue (Stance.queued c).spot? (Stance.queued c').spot? w'.queue := by
                rw [show w'.queue = _ from queue', Option.elim_some, Stance.spot?, Stance.spot?, ticket]
                exact .passes head (w.queue_leave c.slot)
              dsimp only
              cases holds' : w'.engine.tracker.holds c'.slot c'.ticket with
              | true => exact .granted both ⟨ticket, rule, mode⟩ queued' goes found (ticket ▸ head_of_holds holds')
              | false => exact .waits both.moved ⟨ticket, rule, mode⟩ queued' goes

def Granted (regime : Regime) (E : Stance → World → Prop) (w : World) (c : Claim) :
    World × Request.Grant → Prop
  | (w', .waiting c') => E (.queued c') w' ∧ w.Relies regime w' ∧ c'.rule = c.rule ∧
      c'.mode = c.mode
  | (w', .granted id) => E (.holding c.rule id c.ticket {}) w' ∧ w.Relies regime w' ∧
      (c.mode = .create → (w'.slot id).retired = false) ∧ (w'.slot id).Tidy
  | (w', .absent) => E .free w' ∧ w.Relies regime w' ∧ c.mode = .existing ∧
      w'.engine.tracker.find? c.rule = none

theorem granted_pollClaim (env : Surroundings regime barred E) {c : Claim} (e : E (.queued c) w)
    (spares : ∀ {id}, (Request.pollClaim w c).2 = .granted id →
      ¬ barred ((Request.pollClaim w c).1.slot id).ruleId) :
    Granted regime E w c (Request.pollClaim w c) := by
  have polled := Request.claimPolled (env.coherent e) (env.stands e)
  generalize Request.pollClaim w c = result at polled spares
  cases polled with
  | waits shuffles same queued queue =>
      obtain ⟨ticket, rule, mode⟩ := same
      exact ⟨env.move e (.requeues shuffles ticket queued queue) trivial, shuffles.relies, rule, mode⟩
  | @granted w' c' shuffles same queued queue found head =>
      obtain ⟨ticket, rule, mode⟩ := same
      have e' : E (.queued c') w' := env.move e (.requeues shuffles ticket queued queue) trivial
      have spared : ¬ barred c.rule := by
        rw [← ruleId_take shuffles.shifts.coherent c' found]
        exact spares rfl
      have taken := env.move e' (.acquires (rule.symm ▸ found) (ticket.symm ▸ head))
        (show ¬ barred c'.rule from rule.symm ▸ spared)
      rw [rule, ticket] at taken
      refine ⟨taken, shuffles.relies.trans (.of_rules rfl rfl), fun create => kept_of_take (mode.trans create), ?_⟩
      exact tidy_take c' (env.tidy e' (rule.symm ▸ found) (ticket.symm ▸ head))
  | lapses shuffles queue existing absent =>
      exact ⟨env.move e (.leaves shuffles queue) trivial, shuffles.relies, existing, absent⟩

/-! ### Making requests -/

theorem chore_startLookups (w : World) (rules : List RuleId) :
    w.Chore regime (Request.startLookups w rules).1 := by
  induction rules generalizing w with
  | nil =>
      exact ⟨⟨rfl, rfl, .refl _, rfl, rfl, Nat.le_refl _, rfl, rfl, rfl⟩, .of_same rfl, rfl,
        rfl, rfl, .refl _⟩
  | cons rule rest ih =>
      have later := ih { w with sink := w.sink.startFindOpen.1 }
      obtain ⟨⟨journal, letters, agree, store, ids, moves, clock, policy, jitter⟩, ⟨sound, once⟩,
        slots, index, next, marks⟩ := later
      exact ⟨⟨journal, letters, agree, store, ids, moves, clock, policy, jitter⟩, ⟨sound, once⟩,
        slots, index, next, marks⟩

theorem rules_startLookups (w : World) (rules : List RuleId) :
    (Request.startLookups w rules).1.engine = w.engine := by
  induction rules generalizing w with
  | nil => rfl
  | cons rule rest ih => exact ih { w with sink := w.sink.startFindOpen.1 }

theorem Request.start_relies (r : Request) (w : World) :
    w.Relies regime (r.start w.takeTicket.2 w.takeTicket.1).1 := by
  cases r with
  | knownSlot id =>
      rw [start]
      split <;> exact .of_rules rfl rfl
  | findOpen rules =>
      have lookups : w.takeTicket.1.Chore regime (startLookups w.takeTicket.1 rules).1 :=
        chore_startLookups _ rules
      exact .of_rules lookups.aside.paces.clock
        (congrArg Engine.rules (rules_startLookups w.takeTicket.1 rules))
  | _ => exact .of_same rfl rfl

theorem Request.Awaits.unsettled {r : Request} {wait : r.Wait}
    {next : r.Answer → Stance → World → Prop} (h : r.Awaits regime wait σ w next) :
    r.isSettled wait = false := by
  cases r with
  | existingSlot rule =>
      cases wait with
      | none => exact h.elim
      | some c => rfl
  | _ => rfl

theorem Request.absent_of_settled {r : Request} (rule : RuleId) (ticket : Ticket) (w : World)
    (settled : r.isSettled (r.start ticket w).2 = true) (same : r = .existingSlot rule) :
    (r.start ticket w).1.engine.tracker.find? rule = none := by
  subst same
  cases found : w.engine.tracker.find? rule with
  | none =>
      rw [start, claim, Tracker.request, found]
      exact found
  | some id =>
      rw [start, claim, Tracker.request, found] at settled
      exact absurd settled (by simp [isSettled])

/-- A call that makes a request goes on at once, or it waits for what it has to be able to go on with. -/
def Request.Started (regime : Regime) (E : Stance → World → Prop) (r : Request)
    (next : r.Answer → Stance → World → Prop) (started : World × r.Wait) : Prop :=
  (∃ σ, E σ started.1 ∧ r.Awaits regime started.2 σ started.1 next) ∨
    ∃ a w, r.isSettled started.2 = true ∧ r.poll started.2 started.1 = (w, .answered a) ∧
      ∃ σ, E σ w ∧ next a σ w

theorem joined (env : Surroundings regime barred E) {rule : RuleId} {mode : Acquire} {c : Claim}
    (e : E .free w)
    (spec : w.engine.tracker.Requested w.moves rule mode (w.engine.tracker.request w.moves rule mode))
    (made : (w.engine.tracker.request w.moves rule mode).2 = some c) (ticket : c.ticket = w.moves)
    (queued : (w.engine.tracker.request w.moves rule mode).1.Queued c) :
    E (.queued c) (Request.claim w.takeTicket.1 w.moves rule mode).1 := by
  have coherent : w.engine.tracker.Coherent := env.coherent e
  have queue : Requeued w.queue none (Stance.queued c).spot?
      (Request.claim w.takeTicket.1 w.moves rule mode).1.queue := by
    rw [Request.queue_claim (w := w.takeTicket.1) coherent made, Option.elim_some, Stance.spot?, ticket]
    exact .joins
  have shuffles : w.Shuffles c.ticket (Request.claim w.takeTicket.1 w.moves rule mode).1 := by
    rw [ticket]
    exact ⟨⟨rfl, rfl, .refl _, rfl, rfl, Nat.le_succ _, rfl, rfl, rfl⟩, spec.shifts, rfl⟩
  have early : c.ticket < (Request.claim w.takeTicket.1 w.moves rule mode).1.moves := by
    rw [ticket]
    exact Nat.lt_succ_self w.moves
  exact env.move e (.joins shuffles (Nat.le_of_eq ticket.symm) early queued queue) trivial

theorem Request.started_slot (env : Surroundings regime barred E) {rule : RuleId}
    {next : SlotId → Stance → World → Prop} (e : E .free w)
    (goes : ∀ w' id ticket, w.Relies regime w' → (w'.slot id).retired = false →
      next id (.holding rule id ticket {}) w') :
    Request.Started regime E (.slot rule) next
      (Request.start (.slot rule) w.takeTicket.2 w.takeTicket.1) := by
  have coherent := env.coherent e
  have spec := Tracker.request_spec coherent w.moves rule .create
  cases made : (w.engine.tracker.request w.moves rule .create).2 with
  | none => exact absurd (spec.absent made).1 (by simp)
  | some c =>
      obtain ⟨ticket, named, mode, queued, -⟩ := spec.claimed made
      refine .inl ⟨.queued c, joined env e spec made ticket queued, ?_⟩
      have wait : (Request.start (.slot rule) w.takeTicket.2 w.takeTicket.1).2 = some c := made
      rw [wait]
      exact ⟨rfl, named, mode, fun w' id ticket relies =>
        goes w' id ticket (((slot rule).start_relies w).trans relies)⟩

theorem Request.started_existingSlot (env : Surroundings regime barred E) {rule : RuleId}
    {next : Option SlotId → Stance → World → Prop} (e : E .free w)
    (goes : ∀ w', w.Relies regime w' → (w'.engine.tracker.find? rule = none → next none .free w') ∧
      ∀ id ticket, (w'.slot id).outbox.Ripe w'.clock → (w'.slot id).Tidy →
        next (some id) (.holding rule id ticket {}) w') :
    Request.Started regime E (.existingSlot rule) next
      (Request.start (.existingSlot rule) w.takeTicket.2 w.takeTicket.1) := by
  have coherent := env.coherent e
  have spec := Tracker.request_spec coherent w.moves rule .existing
  cases made : (w.engine.tracker.request w.moves rule .existing).2 with
  | some c =>
      obtain ⟨ticket, named, mode, queued, -⟩ := spec.claimed made
      refine .inl ⟨.queued c, joined env e spec made ticket queued, ?_⟩
      have wait : (Request.start (.existingSlot rule) w.takeTicket.2 w.takeTicket.1).2 = some c := made
      rw [wait]
      exact ⟨rfl, named, fun w' relies => goes w' (((existingSlot rule).start_relies w).trans relies)⟩
  | none =>
      have absent : w.engine.tracker.find? rule = none := by
        cases found : w.engine.tracker.find? rule with
        | none => rfl
        | some id =>
            rw [Tracker.request, found] at made
            exact absurd made (by simp)
      have same : Request.start (.existingSlot rule) w.takeTicket.2 w.takeTicket.1 =
          (w.takeTicket.1, none) := by
        simp only [Request.start, Request.claim, Tracker.request, World.takeTicket, absent]
        rfl
      rw [same]
      have e' := env.chore (env.chore e chore_takeTicket rfl) chore_moved rfl
      exact .inr ⟨none, w.takeTicket.1.moved, rfl, rfl, .free, e',
        (goes w.takeTicket.1.moved (.of_rules rfl rfl)).1 absent⟩

theorem Request.started_knownSlot (env : Surroundings regime barred E) {id : SlotId}
    {next : Bool → Stance → World → Prop} (e : E .free w) (below : id < w.engine.tracker.nextSlot)
    (goes : ∀ w', w.Relies regime w' → w.engine.tracker.Ages w'.engine.tracker →
      next false .free w' ∧ ∀ rule ticket, (w'.slot id).Tidy → next true (.holding rule id ticket {}) w') :
    Request.Started regime E (.knownSlot id) next
      (Request.start (.knownSlot id) w.takeTicket.2 w.takeTicket.1) := by
  have coherent := env.coherent e
  have takes : w.Relies regime w.takeTicket.1 := .of_rules rfl rfl
  cases got : w.engine.tracker.slots[id]? with
  | none =>
      have missing : w.takeTicket.1.engine.tracker.slots.contains id = false := by
        rw [Std.TreeMap.contains_eq_isSome_getElem?]
        exact congrArg Option.isSome got
      have same : Request.start (.knownSlot id) w.takeTicket.2 w.takeTicket.1 =
          (w.takeTicket.1, w.takeTicket.2) := by
        rw [start, missing]
        rfl
      rw [same]
      exact .inl ⟨.free, env.chore e chore_takeTicket rfl, .inr ⟨rfl, below, got⟩,
        fun w' relies ages => goes w' (takes.trans relies) ages⟩
  | some s =>
      have there : w.takeTicket.1.engine.tracker.slots.contains id = true := by
        rw [Std.TreeMap.contains_eq_isSome_getElem?]
        exact congrArg Option.isSome got
      have same : Request.start (.knownSlot id) w.takeTicket.2 w.takeTicket.1 =
          (w.takeTicket.1.onTracker (·.join id w.moves), w.moves) := by
        rw [start, there]
        rfl
      rw [same]
      have shuffles : w.Shuffles w.moves (w.takeTicket.1.onTracker (·.join id w.moves)) :=
        ⟨⟨rfl, rfl, .refl _, rfl, rfl, Nat.le_succ _, rfl, rfl, rfl⟩,
          Tracker.shifts_join coherent got, rfl⟩
      have queued := @Tracker.queued_join _ w.moves _ _ _ got .existing rfl
      have queue : Requeued w.queue none (some (.slot id, w.moves))
          (w.takeTicket.1.onTracker (·.join id w.moves)).queue := by
        have joined : (w.takeTicket.1.onTracker (·.join id w.moves)).queue =
            Function.update w.queue (.slot id) (w.queue (.slot id) ++ [w.moves]) :=
          World.queue_of_slot (Tracker.queues_join w.engine.tracker id w.moves) rfl
        exact joined ▸ .joins
      refine .inl ⟨_, env.move e (.joins shuffles (Nat.le_refl _) (Nat.lt_succ_self _) queued queue) trivial,
        .inl ⟨_, rfl⟩, fun w' relies ages => ?_⟩
      exact goes w' (shuffles.relies.trans relies) (shuffles.shifts.respects.ages.trans ages)

theorem Request.started_deliver (env : Surroundings regime barred E) {event : Event}
    {next : Except SinkError Unit → Stance → World → Prop} (e : E σ w)
    (admits : Request.Admits regime (.deliver event) σ w next) :
    Request.Started regime E (.deliver event) next
      (Request.start (.deliver event) w.takeTicket.2 w.takeTicket.1) := by
  have e₁ := env.chore e chore_takeTicket rfl
  cases σ with
  | free => exact admits.elim
  | queued c => exact admits.elim
  | holding rule id ticket work =>
      obtain ⟨todo, stage⟩ := work
      cases stage with
      | handed event' =>
          obtain ⟨rfl, empty, goes⟩ := admits
          have sent : Happens regime rule id w.takeTicket.1 (some { todo, stage := .handed event' })
              _ _ := .sent w.clock empty
          refine .inl ⟨_, env.works e₁ sent, rule, id, ticket, .first todo, rfl, empty, ?_⟩
          exact goes.later (.of_rules rfl rfl) (.refl _)
      | draining =>
          cases todo with
          | cons event' rest => exact admits.elim
          | nil =>
              obtain ⟨⟨front, rest, due, rfl⟩, ripe, goes⟩ := admits
              have ripe : front.isDue w.clock = true := ripe front (by rw [due]; rfl)
              have sent : Happens regime rule id w.takeTicket.1 (some { stage := .draining }) _ _ :=
                .resent w.clock due ripe
              refine .inl ⟨_, env.works e₁ sent, rule, id, ticket, .again, rfl,
                ⟨front, rest, due, rfl⟩, ?_⟩
              exact goes.later (.of_rules rfl rfl) (.refl _)
      | _ => cases todo <;> exact admits.elim
  | awaiting ticket => exact admits.elim
  | refreshing ticket => exact admits.elim

theorem Request.started (env : Surroundings regime barred E) {r : Request}
    {next : r.Answer → Stance → World → Prop} (admits : r.Admits regime σ w next) (e : E σ w) :
    Request.Started regime E r next (r.start w.takeTicket.2 w.takeTicket.1) := by
  have e₁ := env.chore e chore_takeTicket rfl
  have aside {w' : World} (chore : w.takeTicket.1.Chore regime w') (turns : w'.turns = w.takeTicket.1.turns) :
      E σ w' := env.chore e₁ chore turns
  have starts : w.Relies regime (r.start w.takeTicket.2 w.takeTicket.1).1 := r.start_relies w
  cases r with
  | slot rule =>
      obtain ⟨rfl, goes⟩ := admits
      exact started_slot env e goes
  | existingSlot rule =>
      obtain ⟨rfl, goes⟩ := admits
      exact started_existingSlot env e goes
  | knownSlot id =>
      obtain ⟨rfl, below, goes⟩ := admits
      exact started_knownSlot env e below goes
  | deliver event => exact started_deliver env e admits
  | refreshTurn =>
      obtain ⟨rfl, goes⟩ := admits
      have asks : w.Chore regime (Request.start .refreshTurn w.moves w.takeTicket.1).1 :=
        ⟨⟨rfl, rfl, .refl _, rfl, rfl, Nat.le_succ _, rfl, rfl, rfl⟩, .of_same rfl, rfl, rfl, rfl,
          .refl _⟩
      exact .inl ⟨.awaiting w.moves, env.move e (.asks asks (Nat.le_refl _) (Nat.lt_succ_self _) rfl) trivial, rfl,
        fun w' relies => goes w' _ (starts.trans relies)⟩
  | fetch =>
      cases σ with
      | refreshing ticket =>
          exact .inl ⟨_, aside ⟨⟨rfl, rfl, .refl _, rfl, rfl, Nat.le_refl _, rfl, rfl, rfl⟩, .of_same rfl, rfl, rfl,
            rfl, .refl _⟩ rfl, ticket, rfl, fun a w' relies => admits a w' (starts.trans relies)⟩
      | _ => exact admits.elim
  | findOpen rules =>
      have turns := congrArg (fun e : Engine => e.rules.turns) (rules_startLookups w.takeTicket.1 rules)
      exact .inl ⟨σ, aside (chore_startLookups _ rules) turns, admits.1,
        fun a w' relies => admits.2 a w' (starts.trans relies)⟩
  | findAll =>
      exact .inl ⟨σ, aside ⟨⟨rfl, rfl, .refl _, rfl, rfl, Nat.le_refl _, rfl, rfl, rfl⟩,
          .of_same rfl, rfl, rfl, rfl, .refl _⟩ rfl, admits.1,
        fun a w' relies => admits.2 a w' (starts.trans relies)⟩
  | sleep span => exact admits.elim

/-! ### Polling requests -/

/-- After a poll a call goes on with the answer, or it waits on. -/
def Request.Polled (regime : Regime) (E : Stance → World → Prop) (r : Request)
    (next : r.Answer → Stance → World → Prop) : World × Request.Progress r → Prop
  | (w, .answered a) => ∃ σ, E σ w ∧ next a σ w
  | (w, .waiting wait) => ∃ σ, E σ w ∧ r.Awaits regime wait σ w next

theorem Request.polled_answer (env : Surroundings regime barred E) {r : Request}
    {next : r.Answer → Stance → World → Prop} {a : r.Answer} (e : E σ w) (goes : next a σ w.moved) :
    Request.Polled regime E r next (Request.answer r w a) :=
  ⟨σ, env.chore e chore_moved rfl, goes⟩

theorem Request.poll_slot_of_granted {c : Claim} {rule : RuleId} {id : SlotId}
    (granted : (pollClaim w c).2 = .granted id) :
    poll (.slot rule) (some c) w = ((pollClaim w c).1.moved, .answered id) := by
  rw [poll]
  generalize pollClaim w c = result at granted
  obtain ⟨w', grant⟩ := result
  obtain rfl : grant = .granted id := granted
  rfl

theorem Request.poll_existingSlot_of_granted {c : Claim} {rule : RuleId} {id : SlotId}
    (granted : (pollClaim w c).2 = .granted id) :
    poll (.existingSlot rule) (some c) w = ((pollClaim w c).1.moved, .answered (some id)) := by
  rw [poll]
  generalize pollClaim w c = result at granted
  obtain ⟨w', grant⟩ := result
  obtain rfl : grant = .granted id := granted
  rfl

theorem Request.polled_slot (env : Surroundings regime barred E) {rule : RuleId} {wait : Option Claim}
    {next : SlotId → Stance → World → Prop}
    (awaits : Request.Awaits regime (.slot rule) wait σ w next) (e : E σ w)
    (spares : Request.Spares barred (.slot rule) wait w) :
    Request.Polled regime E (.slot rule) next (Request.poll (.slot rule) wait w) := by
  cases wait with
  | none => exact awaits.elim
  | some c =>
      obtain ⟨rfl, rfl, mode, goes⟩ := awaits
      have granted := granted_pollClaim env e fun {id} granted => by
        have spared : ¬ barred ((Request.pollClaim w c).1.moved.slot id).ruleId :=
          spares (poll_slot_of_granted granted) rfl
        exact spared
      rw [Request.poll]
      generalize Request.pollClaim w c = result at granted
      obtain ⟨w', grant⟩ := result
      cases grant with
      | waiting c' =>
          obtain ⟨e', relies, rule, mode'⟩ := granted
          exact ⟨_, e', rfl, rule, mode'.trans mode,
            fun w'' id ticket relies' => goes w'' id ticket (relies.trans relies')⟩
      | granted id =>
          obtain ⟨e', relies, kept, -⟩ := granted
          exact polled_answer env e' (goes _ _ _ (relies.trans (.of_rules rfl rfl)) (kept mode))
      | absent => exact absurd (mode.symm.trans granted.2.2.1) (by simp)

theorem Request.polled_existingSlot (env : Surroundings regime barred E) {rule : RuleId}
    {wait : Option Claim} {next : Option SlotId → Stance → World → Prop}
    (awaits : Request.Awaits regime (.existingSlot rule) wait σ w next) (e : E σ w)
    (spares : Request.Spares barred (.existingSlot rule) wait w) :
    Request.Polled regime E (.existingSlot rule) next (Request.poll (.existingSlot rule) wait w) := by
  cases wait with
  | none => exact awaits.elim
  | some c =>
      obtain ⟨rfl, rfl, goes⟩ := awaits
      have granted := granted_pollClaim env e fun {id} granted => by
        have spared : ¬ barred ((Request.pollClaim w c).1.moved.slot id).ruleId :=
          spares (poll_existingSlot_of_granted granted) rfl
        exact spared
      rw [Request.poll]
      generalize Request.pollClaim w c = result at granted
      obtain ⟨w', grant⟩ := result
      cases grant with
      | waiting c' =>
          obtain ⟨e', relies, rule, -⟩ := granted
          exact ⟨_, e', rfl, rule, fun w'' relies' => goes w'' (relies.trans relies')⟩
      | granted id =>
          obtain ⟨e', relies, -, tidy⟩ := granted
          have ripe : (w'.slot id).outbox.Ripe w'.clock := env.ripe_held e'
          exact polled_answer env e' ((goes w'.moved (relies.trans (.of_rules rfl rfl))).2 _ _ ripe tidy)
      | absent =>
          obtain ⟨e', relies, -, absent⟩ := granted
          exact polled_answer env e' ((goes w'.moved (relies.trans (.of_rules rfl rfl))).1 absent)

theorem Request.polled_knownSlot (env : Surroundings regime barred E) {id : SlotId} {ticket : Ticket}
    {next : Bool → Stance → World → Prop}
    (awaits : Request.Awaits regime (.knownSlot id) ticket σ w next) (e : E σ w)
    (spares : Request.Spares barred (.knownSlot id) ticket w) :
    Request.Polled regime E (.knownSlot id) next (Request.poll (.knownSlot id) ticket w) := by
  obtain ⟨place, goes⟩ := awaits
  rcases place with ⟨rule, rfl⟩ | ⟨rfl, -, gone⟩
  · have coherent := env.coherent e
    have queued : w.engine.tracker.Queued { ticket, rule, mode := .existing, slot := id } := env.stands e
    obtain ⟨s, got, named, -⟩ := queued.waits
    obtain rfl : w.engine.tracker.slot id = s := Tracker.slot_of_get got
    have there : w.engine.tracker.slots.contains id = true := by
      rw [Std.TreeMap.contains_eq_isSome_getElem?]
      exact congrArg Option.isSome got
    rw [Request.poll, there]
    cases holds : w.engine.tracker.holds id ticket with
    | false => exact ⟨_, e, .inl ⟨rule, rfl⟩, goes⟩
    | true =>
        have head : (w.slot id).queue.head? = some ticket := by
          rw [Tracker.holds] at holds
          exact of_decide_eq_true holds
        cases detached : (w.slot id).detached with
        | true =>
            have left := shuffles_leave coherent head
            have queue : Requeued w.queue (some (.slot id, ticket)) none (w.leave id).queue := by
              rw [w.queue_leave]
              exact .leaves head
            exact polled_answer env (env.move e (.leaves left queue) trivial) (goes (w.leave id).moved
              (.of_rules rfl rfl) left.shifts.respects.ages).1
        | false =>
            have found : w.engine.tracker.find? rule = some id :=
              (congrArg _ named.symm).trans (coherent.kept got detached)
            have spared : ¬ barred rule := by
              have poll : Request.poll (.knownSlot id) ticket w = (w.moved, .answered true) := by
                rw [Request.poll, there, holds, detached]
                rfl
              have spared : ¬ barred (w.moved.slot id).ruleId := spares poll rfl
              exact coherent.ruleId found ▸ spared
            exact polled_answer env (acquires_of_holds env e holds found spared)
              ((goes w.moved (.of_rules rfl rfl) (.refl _)).2 rule ticket (env.tidy e found head))
  · have missing : w.engine.tracker.slots.contains id = false := by
      rw [Std.TreeMap.contains_eq_isSome_getElem?, gone]
      rfl
    rw [Request.poll, missing]
    exact polled_answer env e (goes w.moved (.of_rules rfl rfl) (.refl _)).1

theorem Flight.result?_eq_some {f : Flight α} {now : Duration} {a : α} (h : f.result? now = some a) :
    f.answer = some a := by
  rw [Flight.result?] at h
  split at h
  · exact h
  · exact absurd h (by simp)

section Attempts

variable {rule : RuleId} {id : SlotId} {ticket : Ticket} {attempt : Attempt} {event : Event}
  {flight : Flight (Except SinkError Unit)}

theorem Attempt.acts (fits : attempt.Fits event (w.slot id).outbox) (waits : flight.answer = none) :
    Happens regime rule id w (some (attempt.sending event flight))
      { w with sink := (w.sink.deliver flight.act.deed event).1 }
      (some (attempt.sending event (flight.answered (w.sink.deliver flight.act.deed event).2))) := by
  cases attempt with
  | first todo => exact .acted waits
  | again =>
      obtain ⟨front, rest, due, rfl⟩ := fits
      exact .actedAgain due waits

theorem Attempt.succeeds (fits : attempt.Fits event (w.slot id).outbox)
    (done : flight.answer = some (.ok ())) :
    Happens regime rule id w (some (attempt.sending event flight)) (w.note (.answered event (.ok ())))
      (some attempt.accepted) := by
  cases attempt with
  | first todo => exact .accepted done
  | again =>
      obtain ⟨front, rest, due, rfl⟩ := fits
      exact .acceptedAgain due done

theorem Attempt.fails (fits : attempt.Fits event (w.slot id).outbox) (error : SinkError) :
    Happens regime rule id w (some (attempt.sending event flight))
      (w.note (.answered event (.error error))) (some (attempt.refused event error)) := by
  cases attempt with
  | first todo => exact .refused error
  | again =>
      obtain ⟨front, rest, due, rfl⟩ := fits
      exact .refusedAgain due error

theorem Request.polled_deliver (env : Surroundings regime barred E) {limit : Duration}
    {next : Except SinkError Unit → Stance → World → Prop}
    (fits : attempt.Fits event (w.slot id).outbox)
    (goes : attempt.GoesOn regime rule id ticket event w next)
    (e : E (.holding rule id ticket (attempt.sending event flight)) w) :
    Request.Polled regime E (.deliver event) next
      (Request.poll (.deliver event) (flight, limit) w) := by
  -- The flight may act in this poll; then its answer may have come, or the limit passed.
  obtain ⟨w₁, flight₁, polled, e₁, slot, relies⟩ : ∃ w₁ flight₁,
      (flight.poll w fun sink deed => sink.deliver deed event) = (w₁, flight₁) ∧
        E (.holding rule id ticket (attempt.sending event flight₁)) w₁ ∧
        w₁.slot id = w.slot id ∧ w.Relies regime w₁ := by
    rw [Flight.poll]
    cases answer : flight.answer with
    | some a => exact ⟨w, flight, rfl, e, rfl, .of_rules rfl rfl⟩
    | none =>
        dsimp only
        split
        · exact ⟨_, _, rfl, env.works e (Attempt.acts fits answer), rfl, .of_rules rfl rfl⟩
        · exact ⟨w, flight, rfl, e, rfl, .of_rules rfl rfl⟩
  rw [← slot] at fits
  have goes₁ := goes.later relies (slot ▸ .refl _)
  have ends (a : Except SinkError Unit) : (a = .ok () → flight₁.answer = some (.ok ())) →
      Request.Polled regime E (.deliver event) next
        (Request.answer (.deliver event) (w₁.note (.answered event a)) a) := by
    intro done
    obtain ⟨accepted, refused⟩ := goes₁ (w₁.note (.answered event a)).moved (.of_rules rfl rfl) (.refl _)
    cases a with
    | ok u =>
        exact polled_answer env (env.works e₁ (Attempt.succeeds fits (done rfl))) accepted
    | error error =>
        exact polled_answer env (env.works e₁ (Attempt.fails fits error)) (refused error)
  simp only [Request.poll, polled]
  cases result : flight₁.result? w₁.clock with
  | some a => exact ends a fun ok => ok ▸ Flight.result?_eq_some result
  | none =>
      dsimp only
      split
      · exact ends _ fun ok => absurd ok (by simp)
      · exact ⟨_, e₁, rule, id, ticket, attempt, rfl, fits, goes₁⟩

end Attempts

theorem Sink.perform_of_reading {α : Type} (s : Sink) (deed : Deed) (subject : String)
    (look : AlertStore → Except SinkError α) (renamed : AlertId → α → α) :
    (s.perform deed subject (fun store => (store, look store)) renamed).1 = s := by
  cases deed <;> rfl

theorem Flight.poll_of_reading {α : Type} (f : Flight α) (w : World) (call : Sink → Deed → Sink × α)
    (reads : ∀ deed, (call w.sink deed).1 = w.sink) : (f.poll w call).1 = w := by
  rw [Flight.poll]
  cases f.answer with
  | some a => rfl
  | none =>
      dsimp only
      split
      · rw [reads]
      · rfl

theorem pollLookups_fst (w : World)
    (flights : List (RuleId × Flight (Except SinkError (Option Alert)))) :
    (Request.pollLookups w flights).1 = w := by
  induction flights with
  | nil => rfl
  | cons pair rest ih =>
      obtain ⟨rule, flight⟩ := pair
      have same := flight.poll_of_reading w (fun sink deed => sink.lookUp deed rule)
        fun deed => Sink.perform_of_reading w.sink deed rule _ _
      simp only [Request.pollLookups, same]
      exact ih

theorem Request.poll_findOpen (rules : List RuleId) (wait : (Request.findOpen rules).Wait) (w : World) :
    (∃ wait', (Request.findOpen rules).poll wait w = (w, .waiting wait')) ∨
      ∃ answers, (Request.findOpen rules).poll wait w = (w.moved, .answered answers) := by
  have same := pollLookups_fst w wait
  rw [poll]
  generalize pollLookups w wait = looked at same
  obtain ⟨w', flights⟩ := looked
  obtain rfl : w' = w := same
  dsimp only
  split
  · exact .inr ⟨_, rfl⟩
  · exact .inl ⟨_, rfl⟩

theorem Request.poll_findAll (wait : Request.findAll.Wait) (w : World) :
    (∃ wait', Request.findAll.poll wait w = (w, .waiting wait')) ∨
      ∃ answer, Request.findAll.poll wait w = (w.moved, .answered answer) := by
  have same := Flight.poll_of_reading wait w (fun sink deed => sink.listOpen deed)
    fun deed => Sink.perform_of_reading w.sink deed "all" _ _
  rw [poll]
  generalize Flight.poll wait w (fun sink deed => sink.listOpen deed) = listed at same
  obtain ⟨w', flight⟩ := listed
  obtain rfl : w' = w := same
  dsimp only
  split
  · exact .inr ⟨_, rfl⟩
  · exact .inl ⟨_, rfl⟩

theorem Flight.world_poll {α : Type} (f : Flight α) (w : World) (call : Sink → Deed → Sink × α) :
    ∃ sink, (f.poll w call).1 = { w with sink } := by
  rw [Flight.poll]
  split
  · exact ⟨w.sink, rfl⟩
  · split
    · exact ⟨_, rfl⟩
    · exact ⟨w.sink, rfl⟩

/-- All that a poll changes unless it lets a delivery act: the queues at the slots, and who is woken. -/
def World.Shifts (w w' : World) : Prop :=
  ∃ tracker moves woken, w' = { w with engine := { w.engine with tracker }, moves, woken }

theorem World.Shifts.refl (w : World) : w.Shifts w :=
  ⟨_, _, _, rfl⟩

theorem World.Shifts.moved {w w' : World} (h : w.Shifts w') : w.Shifts w'.moved := by
  obtain ⟨_, _, _, rfl⟩ := h
  exact ⟨_, _, _, rfl⟩

theorem Request.shifts_pollClaim (w : World) (c : Claim) : w.Shifts (pollClaim w c).1 := by
  rw [pollClaim]
  split
  · exact .refl w
  · split
    · exact ⟨_, _, _, rfl⟩
    · have claimed : w.Shifts (claim (w.leave c.slot) c.ticket c.rule c.mode).1 := ⟨_, _, _, rfl⟩
      generalize claim (w.leave c.slot) c.ticket c.rule c.mode = result at claimed
      obtain ⟨w', c'⟩ := result
      cases c' with
      | none => exact claimed
      | some c' =>
        dsimp only
        split
        · obtain ⟨_, _, _, rfl⟩ := claimed
          exact ⟨_, _, _, rfl⟩
        · exact claimed.moved

/-- Looking alerts up leaves the sink as it is, so that only a delivery can change it. -/
theorem Request.shifts_poll {r : Request} (other : ∀ event, r ≠ .deliver event) (wait : r.Wait) (w : World) :
    w.Shifts (r.poll wait w).1 := by
  cases r with
  | slot rule =>
      cases wait with
      | none => exact .refl w
      | some c =>
          have polled := shifts_pollClaim w c
          rw [poll]
          generalize pollClaim w c = result at polled
          obtain ⟨w', grant⟩ := result
          cases grant with
          | granted id => exact polled.moved
          | waiting c' => exact polled
          | absent => exact polled
  | existingSlot rule =>
      cases wait with
      | none => exact (World.Shifts.refl w).moved
      | some c =>
          have polled := shifts_pollClaim w c
          rw [poll]
          generalize pollClaim w c = result at polled
          obtain ⟨w', grant⟩ := result
          cases grant with
          | granted id => exact polled.moved
          | waiting c' => exact polled
          | absent => exact polled.moved
  | deliver event => exact absurd rfl (other event)
  | findOpen rules =>
      rcases poll_findOpen rules wait w with ⟨_, polled⟩ | ⟨_, polled⟩ <;> rw [polled] <;> exact ⟨_, _, _, rfl⟩
  | findAll =>
      rcases poll_findAll wait w with ⟨_, polled⟩ | ⟨_, polled⟩ <;> rw [polled] <;> exact ⟨_, _, _, rfl⟩
  | _ =>
      rw [poll]
      repeat' split
      all_goals exact ⟨_, _, _, rfl⟩

/-- A poll changes neither rules nor the supplies, whatever is polled. -/
theorem Request.world_poll (r : Request) (wait : r.Wait) (w : World) :
    ∃ tracker sink journal moves woken,
      (r.poll wait w).1 = { w with engine := { w.engine with tracker }, sink, journal, moves, woken } := by
  by_cases delivers : ∃ event, r = .deliver event
  · obtain ⟨event, rfl⟩ := delivers
    obtain ⟨flight, limit⟩ := wait
    obtain ⟨sink, same⟩ := flight.world_poll w fun sink deed => sink.deliver deed event
    simp only [poll]
    generalize flight.poll w _ = flown at same ⊢
    obtain ⟨w', flight'⟩ := flown
    obtain rfl : w' = { w with sink } := same
    dsimp only
    repeat' split
    all_goals exact ⟨_, _, _, _, _, rfl⟩
  · obtain ⟨_, _, _, same⟩ := shifts_poll (fun event is => delivers ⟨event, is⟩) wait w
    exact ⟨_, _, _, _, _, same⟩

/-- Polling a request is a sequence of moves. -/
theorem Request.polled (env : Surroundings regime barred E) {r : Request} {wait : r.Wait}
    {next : r.Answer → Stance → World → Prop} (awaits : r.Awaits regime wait σ w next) (e : E σ w)
    (spares : r.Spares barred wait w) : Request.Polled regime E r next (r.poll wait w) := by
  cases r with
  | slot rule => exact polled_slot env awaits e spares
  | existingSlot rule => exact polled_existingSlot env awaits e spares
  | knownSlot id => exact polled_knownSlot env awaits e spares
  | deliver event =>
      obtain ⟨flight, limit⟩ := wait
      obtain ⟨rule, id, ticket, attempt, rfl, fits, goes⟩ := awaits
      exact polled_deliver env fits goes e
  | refreshTurn =>
      obtain ⟨rfl, goes⟩ := awaits
      rw [Request.poll]
      split
      · next head => exact polled_answer env (env.move e (.begins head) trivial) (goes _ (.of_rules rfl rfl))
      · exact ⟨_, e, rfl, goes⟩
  | fetch =>
      obtain ⟨ticket, rfl, goes⟩ := awaits
      rw [Request.poll]
      split
      · exact ⟨_, e, ticket, rfl, goes⟩
      · split
        · split
          · exact ⟨_, e, ticket, rfl, goes⟩
          · exact polled_answer env e (goes _ _ (.of_rules rfl rfl))
        · split
          · exact polled_answer env e (goes _ _ (.of_rules rfl rfl))
          · exact ⟨_, e, ticket, rfl, goes⟩
  | findOpen rules =>
      obtain ⟨rfl, goes⟩ := awaits
      rcases poll_findOpen rules wait w with ⟨_, polled⟩ | ⟨_, polled⟩ <;> rw [polled]
      · exact ⟨.free, e, rfl, goes⟩
      · exact polled_answer env e (goes _ _ (.of_rules rfl rfl))
  | findAll =>
      obtain ⟨rfl, goes⟩ := awaits
      rcases poll_findAll wait w with ⟨_, polled⟩ | ⟨_, polled⟩ <;> rw [polled]
      · exact ⟨.free, e, rfl, goes⟩
      · exact polled_answer env e (goes _ _ (.of_rules rfl rfl))
  | sleep span => exact awaits.elim

end ThresholdAlerts
