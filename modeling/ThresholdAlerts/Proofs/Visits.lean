import ThresholdAlerts.Proofs.Desks
import ThresholdAlerts.Proofs.Holdings
import ThresholdAlerts.Proofs.Verdicts
/-! Visits at a desk that is free. Main statements: a visit gets the desk at once, leaves it free again, and
what it did to the firing state is told by the state alone, whatever becomes of the events that it hands
over. -/
namespace ThresholdAlerts

open Function

/-! ### Free desks -/

def Account.holding (a : Account) : Holding where
  state := a.state
  outbox := a.outbox
  retired := a.retired

def Holding.remains (h : Holding) : Option Holding :=
  if h.retired = true ∧ h.outbox = [] then none else some h

/-- The account of a rule that holds this. -/
def Holding.account (h : Holding) (past : List Happening) : Account where
  state := h.state
  outbox := h.outbox
  retired := h.retired
  past := past

/-- Nobody sits at the desk of a rule; it holds `h`, unless the rule is not tracked. -/
structure World.Vacant (w : World) (rule : RuleId) (h : Option Holding) (past : List Happening) : Prop where
  coherent : w.engine.tracker.Coherent
  queue : (w.engine.tracker.slotFor rule).queue = []
  held : w.engine.tracker.held rule = h
  past : (w.account rule).past = past

theorem Tracker.slotFor_update_other {t : Tracker} {id : SlotId} {rule rule' : RuleId} (c : t.Coherent)
    (found : t.find? rule = some id) (f : Slot → Slot) (ne : rule' ≠ rule) :
    (t.update id f).slotFor rule' = t.slotFor rule' := by
  cases found' : t.find? rule' with
  | none => rw [slotFor_of_absent found', slotFor_of_absent (t := t.update id f) found']
  | some id' =>
    have apart : id' ≠ id := fun same => ne (c.injective found (same ▸ found'))
    rw [slotFor_of_find found', slotFor_of_find (t := t.update id f) found', slot_update_other t f apart]

theorem Tracker.slotFor_leave_other {t : Tracker} {id : SlotId} {rule rule' : RuleId} (c : t.Coherent)
    (found : t.find? rule = some id) (ne : rule' ≠ rule) : (t.leave id).slotFor rule' = t.slotFor rule' := by
  cases found' : t.find? rule' with
  | none => rw [slotFor_of_absent found', slotFor_of_absent ((find?_leave t id rule').trans found')]
  | some id' =>
    have apart : id ≠ id' := fun same => ne (c.injective found (same ▸ found'))
    rw [slotFor_of_find found', slotFor_of_find ((find?_leave t id rule').trans found')]
    exact slot_of_get ((get_leave_other t apart).trans (c.get found'))

namespace World

variable {w w' : World} {rule : RuleId} {id : SlotId} {ticket : Ticket} {a : Account} {h : Option Holding}
  {past : List Happening}

theorem Vacant.account (v : w.Vacant rule h past) :
    w.account rule = (h.getD (.initial rule)).account past := by
  have holding := w.engine.tracker.slotFor_holding rule
  rw [v.held] at holding
  rw [← holding, ← v.past]
  rfl

theorem Keeps.held {p : RuleId → Prop} (keeps : w.Keeps p w') (about : p rule) :
    w'.engine.tracker.held rule = w.engine.tracker.held rule := by
  have found := keeps.found about
  have slot := keeps.slot about
  cases here : w.engine.tracker.find? rule with
  | none => rw [Tracker.held_of_absent here, Tracker.held_of_absent (found.trans here)]
  | some id =>
    rw [here] at found
    rw [Tracker.slotFor_of_find here, Tracker.slotFor_of_find found] at slot
    rw [Tracker.held_of_find here, Tracker.held_of_find found, slot]

theorem Vacant.others (v : w.Vacant rule h past) (keeps : w.Keeps (· = rule) w') : w'.Vacant rule h past :=
  ⟨keeps.coherent v.coherent, (keeps.slot rfl).symm ▸ v.queue, (keeps.held rfl).trans v.held,
    (keeps.past rfl).trans v.past⟩

theorem Vacant.noted (v : w.Vacant rule h past) (notes : w.Notes [] w') : w'.Vacant rule h past :=
  v.others (notes.keeps (by simp))

theorem Vacant.find?_none (v : w.Vacant rule none past) : w.engine.tracker.find? rule = none :=
  Tracker.find?_eq_none.mpr v.held

theorem Seated.held (seated : w.Seated rule id ticket a) : w.engine.tracker.held rule = some a.holding := by
  rw [Tracker.held_of_find seated.found, ← seated.account, account_of_find seated.found]
  rfl

/-! ### Coming and going -/

/-- A call joins the queue of a free slot, which is made if need be. -/
theorem Vacant.claim (v : w.Vacant rule h past) (ticket : Ticket) (mode : Acquire)
    (tracked : mode = .existing → h.isSome) :
    ∃ c, (Request.claim w ticket rule mode).2 = some c ∧ c.ticket = ticket ∧ c.mode = mode ∧
      (Pact.desk rule).self w (Request.claim w ticket rule mode).1 ∧
      (Request.claim w ticket rule mode).1.Seated rule c.slot c.ticket
        ((h.getD (.initial rule)).account past) := by
  have account := v.account
  -- Whether the slot was there or is made now, joining it is all that is left to be done.
  have joins {t : Tracker} {id : SlotId} (coherent : t.Coherent) (found : t.find? rule = some id)
      (others : ∀ {rule'}, rule' ≠ rule → t.find? rule' = w.engine.tracker.find? rule')
      (same : ∀ rule', t.slotFor rule' = w.engine.tracker.slotFor rule') :
      (Pact.desk rule).self w (w.onTracker fun _ => t.join id ticket) ∧
        (w.onTracker fun _ => t.join id ticket).Seated rule id ticket
          ((h.getD (.initial rule)).account past) := by
    have slot := Tracker.slot_of_get (Tracker.get_join t id ticket)
    have here := same rule
    rw [Tracker.slotFor_of_find found] at here
    have joined : (t.join id ticket).Coherent := Tracker.coherent_join coherent (coherent.get found)
    have stays : (t.join id ticket).find? rule = some id := found
    refine ⟨⟨⟨fun _ => joined, others, fun {rule'} ne => ?_, fun _ => rfl, rfl, rfl⟩, ⟨rfl, rfl⟩⟩, joined, found,
      ?_, ?_⟩
    · exact (Tracker.slotFor_update_other coherent found _ ne).trans (same rule')
    · refine (congrArg Slot.queue slot).trans ?_
      rw [here, v.queue]
      rfl
    · have own : (w.onTracker fun _ => t.join id ticket).engine.tracker.slotFor rule =
          { t.slot id with queue := (t.slot id).queue ++ [ticket] } :=
        (Tracker.slotFor_of_find stays).trans slot
      rw [← account, World.account, own, here]
      rfl
  cases mode with
  | create =>
    have ensured := joins (Tracker.coherent_ensure v.coherent)
      (Tracker.find?_ensure w.engine.tracker rule) (Tracker.find?_ensure_other _)
      (Tracker.slotFor_ensure v.coherent)
    exact ⟨_, rfl, rfl, rfl, ensured⟩
  | existing =>
    obtain ⟨id, found⟩ : ∃ id, w.engine.tracker.find? rule = some id :=
      Option.ne_none_iff_exists'.mp fun none =>
        absurd (tracked rfl) (by rw [← v.held, Tracker.held_of_absent none]; simp)
    have joined := joins v.coherent found (fun _ => rfl) fun _ => rfl
    refine ⟨{ ticket, rule, mode := .existing, slot := id }, ?_, rfl, rfl, ?_⟩
    · simp [Request.claim, Tracker.request, found]
    · simpa [Request.claim, Tracker.request, found] using joined

theorem Seated.pollClaim {c : Claim} (seated : w.Seated rule c.slot c.ticket a) :
    Request.pollClaim w c = (w.onTracker (·.take c), .granted c.slot) := by
  have holds : w.engine.tracker.holds c.slot c.ticket = true := by
    rw [Tracker.holds, decide_eq_true_eq]
    exact congrArg List.head? seated.queue
  have attached := seated.coherent.attached seated.found
  simp [Request.pollClaim, holds, attached]

theorem Seated.take {c : Claim} (seated : w.Seated rule c.slot c.ticket a) :
    (Pact.desk rule).self w (w.onTracker (·.take c)).moved ∧
      (w.onTracker (·.take c)).moved.Seated rule c.slot c.ticket
        (if c.mode = .create then { a with retired := false } else a) := by
  have alters : w.Alters c.slot [] (w.onTracker (·.take c)) := alters_onTracker (Tracker.rewrites_take _ c)
  obtain ⟨self, there⟩ := seated.alters alters (by simp) (.inl ⟨rfl, rfl⟩) ⟨rfl, rfl⟩
  have notes : (w.onTracker (·.take c)).Notes [] (w.onTracker (·.take c)).moved :=
    ⟨rfl, rfl, rfl, rfl, rfl, rfl, rfl⟩
  obtain ⟨self', moved⟩ := there.noted notes (by simp)
  refine ⟨(Pact.desk rule).goesOn self self', moved.coherent, moved.found, moved.queue, ?_⟩
  rw [moved.account, alters.account seated.found (by simp), ← seated.account, account_of_find seated.found]
  cases mode : c.mode with
  | existing => simp [onTracker, onEngine, slot, Tracker.take, mode]
  | create => simp [onTracker, onEngine, slot, Tracker.take, mode, Tracker.slot_update]

theorem Seated.leave (seated : w.Seated rule id ticket a) :
    (Pact.desk rule).self w (w.leave id) ∧ (w.leave id).Vacant rule (some a.holding) a.past := by
  have coherent := Tracker.coherent_leave seated.coherent seated.found
  have found := (Tracker.find?_leave w.engine.tracker id rule).trans seated.found
  have slot := Tracker.slot_of_get
    (Tracker.get_leave (t := w.engine.tracker) (.inl (seated.coherent.attached seated.found)))
  refine ⟨⟨⟨fun _ => coherent, fun _ => Tracker.find?_leave _ id _, fun ne => ?_, fun _ => rfl, rfl, rfl⟩,
    ⟨rfl, rfl⟩⟩, coherent, ?_, ?_, ?_⟩
  · exact Tracker.slotFor_leave_other seated.coherent seated.found ne
  · refine (congrArg Slot.queue ((Tracker.slotFor_of_find found).trans slot)).trans ?_
    exact congrArg List.tail seated.queue
  · exact (congrFun (Tracker.held_leave seated.coherent id) rule).trans seated.held
  · change (w.account rule).past = a.past
    rw [seated.account]

/-- A slot that is let go of for good is gone if it is retired and nothing is left to be delivered. -/
theorem Seated.release (seated : w.Seated rule id ticket a) :
    (Pact.desk rule).self w (w.release id) ∧ (w.release id).Vacant rule a.holding.remains a.past := by
  have past : ((w.release id).account rule).past = a.past := by
    change (w.account rule).past = a.past
    rw [seated.account]
  have holding : (w.engine.tracker.slot id).holding = a.holding := by
    rw [← seated.account, account_of_find seated.found]
    rfl
  obtain ⟨coherent, held⟩ := Tracker.held_release seated.coherent seated.found
  have same := congrFun held rule
  by_cases spent : (w.slot id).retired = true ∧ (w.slot id).outbox = []
  · have gone : a.holding.remains = none := by
      rw [← holding]
      exact if_pos spent
    have tracker := tracker_release_of_spent spent.1 spent.2
    have detached := Tracker.coherent_detach seated.coherent seated.found
    have absent := Tracker.find?_detach seated.coherent seated.found
    have left (rule' : RuleId) (ne : rule' ≠ rule) :
        ((w.engine.tracker.detach id).leave id).slotFor rule' = w.engine.tracker.slotFor rule' := by
      rw [← Tracker.slotFor_detach_other seated.coherent seated.found ne]
      cases found' : (w.engine.tracker.detach id).find? rule' with
      | none =>
        rw [Tracker.slotFor_of_absent found', Tracker.slotFor_of_absent ((Tracker.find?_leave _ id rule').trans found')]
      | some id' =>
        have apart : id ≠ id' := fun same => by
          have attached := detached.attached found'
          rw [← same, Tracker.slot_detach] at attached
          exact absurd attached (by simp)
        rw [Tracker.slotFor_of_find found', Tracker.slotFor_of_find ((Tracker.find?_leave _ id rule').trans found')]
        exact Tracker.slot_of_get ((Tracker.get_leave_other _ apart).trans (detached.get found'))
    have absent' : (w.release id).engine.tracker.find? rule = none := by
      rw [tracker, Tracker.find?_leave, absent]
    refine ⟨⟨⟨fun _ => coherent, fun {rule'} ne => ?_, fun {rule'} ne => ?_, fun _ => rfl, rfl, rfl⟩, ⟨rfl, rfl⟩⟩,
      coherent, ?_, ?_, past⟩
    · rw [tracker, Tracker.find?_leave, Tracker.find?_detach_other seated.coherent seated.found ne]
    · rw [tracker]
      exact left rule' ne
    · rw [Tracker.slotFor_of_absent absent']
      rfl
    · rw [gone, Tracker.held_of_absent absent']
  · have stays : a.holding.remains = some a.holding := by
      rw [← holding]
      exact if_neg spent
    rw [release_of_kept (Tracker.kept_of_unspent spent), stays]
    exact seated.leave

/-! ### Changes of the firing state -/

/-- Alerts are opened under ids that are drawn from the supply, one after the other. -/
structure Draws (w w' : World) : Prop where
  value : w'.ids.value = w.ids.value
  taken : w.ids.taken ≤ w'.ids.taken
  openings : w'.openings = (w.ids.drawn w'.ids).reverse ++ w.openings

theorem Quiet.draws (h : w.Quiet w') : w.Draws w' := by
  refine ⟨by rw [h.ids], Nat.le_of_eq (by rw [h.ids]), ?_⟩
  rw [h.openings, h.ids, Supply.drawn, Nat.sub_self]
  rfl

theorem Names.draws (h : w.Names w') : w.Draws w' := by
  refine ⟨by rw [h.ids]; rfl, by rw [h.ids]; exact Nat.le_succ _, ?_⟩
  have one : w.ids.drawn w'.ids = [w.ids.next] := by
    simp [Supply.drawn, h.ids, Supply.advance, Supply.next]
  rw [h.openings, one]
  rfl

theorem Draws.trans {w₁ w₂ w₃ : World} (h : w₁.Draws w₂) (h' : w₂.Draws w₃) : w₁.Draws w₃ := by
  refine ⟨h'.value.trans h.value, Nat.le_trans h.taken h'.taken, ?_⟩
  have split : w₁.ids.drawn w₃.ids = w₁.ids.drawn w₂.ids ++ w₂.ids.drawn w₃.ids := by
    have first := h.taken
    have later := h'.taken
    have whole : w₃.ids.taken - w₁.ids.taken =
        (w₂.ids.taken - w₁.ids.taken) + (w₃.ids.taken - w₂.ids.taken) := by omega
    have here : w₂.ids.taken = w₁.ids.taken + 1 * (w₂.ids.taken - w₁.ids.taken) := by omega
    rw [Supply.drawn, Supply.drawn, Supply.drawn, h.value, whole, ← List.range'_append, List.map_append, ← here]
  rw [h'.openings, h.openings, split, List.reverse_append, List.append_assoc]

theorem Seated.stateRuleId (seated : w.Seated rule id ticket a) : a.state.ruleId = rule :=
  seated.state ▸ seated.coherent.stateRuleId seated.found

/-- A change of the firing state, and the event that it produces. -/
theorem Seated.change {c : FiringState.Change} (seated : w.Seated rule id ticket a)
    (suits : c.Suits rule a.retired) :
    w.Keeps (· ≠ rule) (w.change id c).1 ∧ (w.change id c).2 = (a.state.apply c).2 ∧
      (w.change id c).1.Seated rule id ticket
        { a with
          state := (a.state.apply c).1
          past := (a.state.apply c).2.toList.map .produced ++ a.past } := by
  have state := seated.state
  have alters : w.Alters id _ (w.change id c).1 := World.alters_change c
  have slot := w.slot_change id c
  have snd := w.change_snd id c
  rw [state] at alters slot snd
  have named : ∀ n ∈ (a.state.apply c).2.toList.map Happening.produced, n.ruleId = rule := by
    intro n mem
    obtain ⟨event, made, rfl⟩ := List.mem_map.mp mem
    have suits' : c.Suits a.state.ruleId a.retired := seated.stateRuleId.symm ▸ suits
    exact (FiringState.ruleId_of_apply suits' (Option.mem_toList.mp made)).trans seated.stateRuleId
  have reconciled : (w.change id c).1.engine.reconciled = w.engine.reconciled := by
    simp only [World.change]
    split <;> rfl
  have keeps := alters.keeps seated.coherent seated.found named reconciled
  refine ⟨keeps, snd, keeps.coherent seated.coherent, (alters.rewrites.find? _).trans seated.found,
    (alters.rewrites.queue (seated.coherent.get seated.found)).trans seated.queue, ?_⟩
  rw [alters.account seated.found named, slot]
  refine Account.mk.injEq .. ▸ ⟨rfl, seated.outbox, seated.retired, ?_⟩
  rw [seated.account]

theorem transition_ids (w : World) (id : SlotId) (r : Rule) (breached : Bool) (value : Float)
    (time : Timestamp) : (w.transition id r breached value time).1.ids =
      w.ids.after (Event.opens (w.transition id r breached value time).2.toList).length := by
  have ids := w.ids_change id (.transition w.ids.next r breached value time)
  rw [transition]
  generalize w.change id (.transition w.ids.next r breached value time) = changed at ids
  obtain ⟨w', event⟩ := changed
  cases event with
  | none => exact ids
  | some event =>
    cases event with
    | opened alert => exact congrArg Supply.advance ids
    | resolved => exact ids

theorem Seated.transition {r : Rule} (seated : w.Seated rule id ticket a) (known : r.id = rule)
    (kept : a.retired = false) (breached : Bool) (value : Float) (time : Timestamp) :
    let made := w.transition id r breached value time
    let ruling := a.state.transition w.ids.next r breached value time
    made.2 = ruling.2 ∧ w.Keeps (· ≠ rule) made.1 ∧ w.Draws made.1 ∧
      made.1.Seated rule id ticket
        { a with state := ruling.1, past := ruling.2.toList.map .produced ++ a.past } := by
  intro made ruling
  obtain ⟨keeps, -, there⟩ :=
    seated.change (c := .transition w.ids.next r breached value time) ⟨known, kept⟩
  have event : made.2 = ruling.2 := by
    rw [World.transition_snd, seated.state]
    rfl
  have draws : w.Draws made.1 := (w.names_transition id r breached value time).elim Quiet.draws Names.draws
  obtain ⟨ids, world⟩ := w.transition_fst id r breached value time
  have world : made.1 = _ := world
  rw [world]
  rw [world] at draws
  exact ⟨event, ⟨keeps.coherent, keeps.found, keeps.slot, keeps.past, keeps.rules, keeps.reconciled⟩, draws,
    there.coherent, there.found, there.queue, there.account⟩

/-- A sample is judged by the definition of the rule. -/
theorem Seated.judge {r : Rule} (seated : w.Seated rule id ticket a) (known : r.id = rule)
    (kept : a.retired = false) (value : Float) (time : Timestamp) :
    let ruling := a.state.judge w.ids.next r value time
    (w.judge id r value time).2 = ruling.2 ∧ w.Keeps (· ≠ rule) (w.judge id r value time).1 ∧
      w.Draws (w.judge id r value time).1 ∧
      (w.judge id r value time).1.ids = w.ids.after (Event.opens ruling.2).length ∧
      (w.judge id r value time).1.Seated rule id ticket
        { a with state := ruling.1, past := (ruling.2.map .produced).reverse ++ a.past } := by
  have counted (c : Stats.Count) :=
    seated.noted (⟨rfl, rfl, rfl, rfl, rfl, rfl, rfl⟩ : w.Notes [] (w.count c)) (by simp)
  simp only [FiringState.judge, World.judge]
  cases r.breaches value with
  | error e =>
    obtain ⟨⟨keeps, quiet⟩, there⟩ := counted .invalidRule
    exact ⟨rfl, keeps, quiet.draws, rfl, there⟩
  | ok breached =>
    obtain ⟨⟨keeps₁, quiet₁⟩, seated₁⟩ := counted .evaluation
    have suits : (FiringState.Change.sync r time).Suits rule true := trivial
    obtain ⟨keeps₂, event₂, seated₂⟩ := seated₁.change (c := .sync r time) trivial
    have quiet₂ : (w.count .evaluation).Quiet ((w.count .evaluation).change id (.sync r time)).1 :=
      World.quiet_change suits
    generalize (w.count .evaluation).change id (.sync r time) = synced at keeps₂ event₂ seated₂ quiet₂
    obtain ⟨w₂, ended⟩ := synced
    dsimp only at keeps₂ event₂ seated₂ quiet₂ ⊢
    have quiet := quiet₁.trans quiet₂
    obtain ⟨event₃, keeps₃, draws₃, seated₃⟩ := seated₂.transition known kept breached value time
    have ids₃ := w₂.transition_ids id r breached value time
    generalize w₂.transition id r breached value time = judged at event₃ keeps₃ draws₃ seated₃ ids₃
    obtain ⟨w₃, event⟩ := judged
    dsimp only at event₃ keeps₃ draws₃ seated₃ ids₃ ⊢
    subst event₂ event₃
    rw [quiet.ids] at ids₃ seated₃ ⊢
    have none : Event.opens (a.state.apply (.sync r time)).2.toList = [] := a.state.opens_syncRule r time
    refine ⟨rfl, keeps₁.trans (keeps₂.trans keeps₃), quiet.draws.trans draws₃, ?_, ?_⟩
    · rw [ids₃]
      change _ = w.ids.after (Event.opens ((a.state.apply (.sync r time)).2.toList ++ _)).length
      rw [Event.opens_append, none, List.nil_append]
      rfl
    · have order (first last : Option Event) : ((first.toList ++ last.toList).map Happening.produced).reverse =
          last.toList.map .produced ++ first.toList.map .produced := by
        cases first <;> cases last <;> rfl
      rw [order, List.append_assoc]
      exact seated₃

theorem Seated.retire (seated : w.Seated rule id ticket a) :
    (Pact.desk rule).self w (w.onTracker (·.retire id)) ∧
      (w.onTracker (·.retire id)).Seated rule id ticket { a with retired := true } := by
  have alters : w.Alters id [] (w.onTracker (·.retire id)) := alters_onTracker (Tracker.rewrites_retire _ id)
  obtain ⟨self, there⟩ := seated.alters alters (by simp) (.inl ⟨rfl, rfl⟩) ⟨rfl, rfl⟩
  have slot : (w.onTracker (·.retire id)).slot id = { w.slot id with retired := true } :=
    Tracker.slot_update _ id _
  refine ⟨self, there.coherent, there.found, there.queue, ?_⟩
  rw [alters.account seated.found (by simp), slot, ← seated.account, account_of_find seated.found]
  rfl

/-- The state is settled with the present definition of the rule; without one the slot is retired. -/
theorem Seated.reconcile (seated : w.Seated rule id ticket a) (announced : Bool) :
    ∃ time, let ruling := a.state.settle (w.rule? rule) announced time
      (w.reconcile id rule announced).2 = ruling.2 ∧
        (Pact.desk rule).self w (w.reconcile id rule announced).1 ∧
        (w.reconcile id rule announced).1.Seated rule id ticket
          { a with
            state := ruling.1
            retired := a.retired || (w.rule? rule).isNone
            past := ruling.2.toList.map .produced ++ a.past } := by
  have read : w.Notes [] w.readCalendar.1 := ⟨rfl, rfl, rfl, rfl, rfl, rfl, rfl⟩
  obtain ⟨self, seated₁⟩ := seated.noted read (by simp)
  have changes (c : FiringState.Change) (suits : ∀ retired, c.Suits rule retired) :
      (w.readCalendar.1.change id c).2 = (a.state.apply c).2 ∧
        (Pact.desk rule).self w (w.readCalendar.1.change id c).1 ∧
        (w.readCalendar.1.change id c).1.Seated rule id ticket
          { a with
            state := (a.state.apply c).1
            past := (a.state.apply c).2.toList.map .produced ++ a.past } := by
    obtain ⟨keeps, event, there⟩ := seated₁.change (c := c) (suits _)
    exact ⟨event, (Pact.desk rule).goesOn self ⟨keeps, quiet_change (suits true)⟩, there⟩
  refine ⟨w.readCalendar.2, ?_⟩
  have known : w.readCalendar.1.rule? rule = w.rule? rule := rfl
  rw [World.reconcile]
  simp only [known]
  cases w.rule? rule with
  | some r =>
    rw [Option.isNone_some, Bool.or_false]
    cases announced with
    | true => exact changes (.reset r _) fun _ => trivial
    | false => exact changes (.sync r _) fun _ => trivial
  | none =>
    obtain ⟨event, self', there⟩ := changes (.force .ruleRemoved w.readCalendar.2) fun _ => trivial
    obtain ⟨retires, retired⟩ := there.retire
    rw [Option.isNone_none, Bool.or_true]
    exact ⟨event, (Pact.desk rule).goesOn self' retires, retired⟩

end World

/-! ### Requests for a free desk -/

section Requests

variable {w : World} {rule : RuleId} {h : Option Holding} {past : List Happening}

theorem World.Vacant.ticketed (v : w.Vacant rule h past) :
    (Pact.desk rule).self w w.takeTicket.1 ∧ w.takeTicket.1.Vacant rule h past := by
  have notes : w.Notes [] w.takeTicket.1 := ⟨rfl, rfl, rfl, rfl, rfl, rfl, rfl⟩
  exact ⟨⟨notes.keeps (by simp), notes.quiet (by simp)⟩, v.noted notes⟩

theorem Request.handled_slot (v : w.Vacant rule h past) :
    (Request.slot rule).Handled (Pact.desk rule) w fun id w' => ∃ ticket,
      w'.Seated rule id ticket { (h.getD (.initial rule)).account past with retired := false } := by
  obtain ⟨takes, begun⟩ := v.ticketed
  obtain ⟨c, claimed, -, mode, self, seated⟩ := begun.claim w.takeTicket.2 .create (by simp)
  refine ⟨(Pact.desk rule).goesOn takes self, fun w' wait => ∃ c, wait = some c ∧ c.mode = .create ∧
    w'.Seated rule c.slot c.ticket ((h.getD (.initial rule)).account past), ⟨c, claimed, mode, seated⟩,
    ?_, ?_, ?_⟩
  · rintro w' w'' wait ⟨c, waits, mode, here⟩ others
    exact ⟨c, waits, mode, here.others others⟩
  · rintro w' w'' wait wait' ⟨c, rfl, mode, here⟩ polled
    simp only [poll, here.pollClaim] at polled
    exact absurd (Prod.mk.inj polled).2 (by simp)
  · rintro w' w'' wait a ⟨c, rfl, mode, here⟩ polled
    simp only [poll, here.pollClaim] at polled
    obtain ⟨rfl, answer⟩ := Prod.mk.inj polled
    cases answer
    obtain ⟨self, there⟩ := here.take
    rw [if_pos mode] at there
    exact ⟨self, c.ticket, there⟩

theorem Request.handled_existingSlot (v : w.Vacant rule h past) :
    (Request.existingSlot rule).Handled (Pact.desk rule) w fun answer w' =>
      (h = none ∧ answer = none ∧ w'.Vacant rule none past) ∨
        ∃ held id ticket, h = some held ∧ answer = some id ∧ w'.Seated rule id ticket (held.account past) := by
  obtain ⟨takes, begun⟩ := v.ticketed
  cases h with
  | none =>
    have absent := begun.find?_none
    have claimed : claim w.takeTicket.1 w.takeTicket.2 rule .existing = (w.takeTicket.1, none) := by
      simp [claim, Tracker.request, absent, World.onTracker, World.onEngine]
    have started : (Request.existingSlot rule).start w.takeTicket.2 w.takeTicket.1 = (w.takeTicket.1, none) := claimed
    rw [Handled, started]
    refine ⟨takes, fun w' wait => wait = none ∧ w'.Vacant rule none past, ⟨rfl, begun⟩,
      fun here others => ⟨here.1, here.2.others others⟩, ?_, ?_⟩
    · rintro w' w'' wait wait' ⟨rfl, here⟩ polled
      exact absurd (Prod.mk.inj polled).2 (by simp)
    · rintro w' w'' wait a ⟨rfl, here⟩ polled
      obtain ⟨rfl, answer⟩ := Prod.mk.inj polled
      cases answer
      have notes : w'.Notes [] w'.moved := ⟨rfl, rfl, rfl, rfl, rfl, rfl, rfl⟩
      exact ⟨⟨notes.keeps (by simp), notes.quiet (by simp)⟩, .inl ⟨rfl, rfl, here.noted notes⟩⟩
  | some held =>
    obtain ⟨c, claimed, -, mode, self, seated⟩ := begun.claim w.takeTicket.2 .existing fun _ => rfl
    refine ⟨(Pact.desk rule).goesOn takes self, fun w' wait => ∃ c, wait = some c ∧ c.mode = .existing ∧
      w'.Seated rule c.slot c.ticket (held.account past), ⟨c, claimed, mode, seated⟩,
      ?_, ?_, ?_⟩
    · rintro w' w'' wait ⟨c, waits, mode, here⟩ others
      exact ⟨c, waits, mode, here.others others⟩
    · rintro w' w'' wait wait' ⟨c, rfl, mode, here⟩ polled
      simp only [poll, here.pollClaim] at polled
      exact absurd (Prod.mk.inj polled).2 (by simp)
    · rintro w' w'' wait a ⟨c, rfl, mode, here⟩ polled
      simp only [poll, here.pollClaim] at polled
      obtain ⟨rfl, answer⟩ := Prod.mk.inj polled
      cases answer
      obtain ⟨self, there⟩ := here.take
      rw [if_neg (by rw [mode]; simp)] at there
      exact ⟨self, .inr ⟨held, c.slot, c.ticket, rfl, rfl, there⟩⟩

theorem Request.Handled.rules {r : Request} {post : r.Answer → World → Prop}
    (handled : r.Handled (Pact.desk rule) w post) :
    r.Handled (Pact.desk rule) w fun a w' => post a w' ∧ w'.engine.rules = w.engine.rules :=
  handled.span (S := fun w w' => w'.engine.rules = w.engine.rules) (fun h h' => h'.trans h)
    (fun keeps => keeps.rules) (fun self => self.1.rules) rfl

end Requests

/-! ### Visits -/

section Visits

variable {T : Type} {w : World} {rule : RuleId} {id : SlotId} {ticket : Ticket} {a : Account}
  {h : Option Holding} {past : List Happening} {events : List Event}

theorem ensures_leaving (seated : w.Seated rule id ticket a) (named : ∀ event ∈ events, event.ruleId = rule)
    (result : List Event) :
    (do dispatchAll id events; Prog.modify (·.leave id); return result : Prog T (List Event)).Ensures
      (Pact.desk rule) Team.nobody w fun out w' => out = result ∧ ∃ a', a.Passes events a' ∧
        w'.Vacant rule (some a'.holding) a'.past := by
  refine (ensures_dispatchAll seated events named).bind fun _ w₁ ⟨a₁, seated₁, passes⟩ => ?_
  exact ⟨seated₁.leave.1, rfl, a₁, passes, seated₁.leave.2⟩

theorem ensures_releasing (seated : w.Seated rule id ticket a) (named : ∀ event ∈ events, event.ruleId = rule)
    (result : List Event) :
    (do dispatchAll id events; Prog.modify (·.release id); return result : Prog T (List Event)).Ensures
      (Pact.desk rule) Team.nobody w fun out w' => out = result ∧ ∃ a', a.Passes events a' ∧
        w'.Vacant rule a'.holding.remains a'.past := by
  refine (ensures_dispatchAll seated events named).bind fun _ w₁ ⟨a₁, seated₁, passes⟩ => ?_
  exact ⟨seated₁.release.1, rfl, a₁, passes, seated₁.release.2⟩

/-- What comes of bringing a holding in line with the present definition of its rule. -/
inductive Holding.Reconciled (definition : Option Rule) (announced : Bool) :
    Option Holding → List Event → Option Holding → Prop
  | untracked : Reconciled definition announced none [] none
  | tracked {h h' : Holding} (time : Timestamp)
      (state : h'.state = (h.state.settle definition announced time).1)
      (retired : h'.retired = (h.retired || definition.isNone))
      (outbox : ∀ d ∈ h'.outbox, (∃ d₀ ∈ h.outbox, d₀.event = d.event) ∨
        d.event ∈ (h.state.settle definition announced time).2.toList)
      (quiet : (h.state.settle definition announced time).2 = none → h'.outbox = h.outbox) :
      Reconciled definition announced (some h) (h.state.settle definition announced time).2.toList h'.remains

/-- These events of a rule were produced and handed over in the meantime, and no others. -/
structure Account.Tells (events : List Event) (a a' : Account) : Prop where
  produced : a'.produced = a.produced ++ events
  handed : a'.handed = a.handed ++ events

theorem Account.Tells.of_same {a a' : Account} (past : a'.past = a.past) : a.Tells [] a' := by
  constructor <;> simp [Account.produced, Account.handed, past]

theorem Account.Tells.trans {events events' : List Event} {a₁ a₂ a₃ : Account} (h : a₁.Tells events a₂)
    (h' : a₂.Tells events' a₃) : a₁.Tells (events ++ events') a₃ :=
  ⟨by rw [h'.produced, h.produced, List.append_assoc], by rw [h'.handed, h.handed, List.append_assoc]⟩

theorem Account.Tells.until {events : List Event} {a₁ a₂ a₃ : Account} (h : a₁.Tells events a₂)
    (past : a₃.past = a₂.past) : a₁.Tells events a₃ := by
  have told := h.trans (.of_same past)
  rwa [List.append_nil] at told

theorem Account.Passes.tells {a a₁ a₂ : Account} {event : Option Event} (passes : a₁.Passes event.toList a₂)
    (past : a₁.past = event.toList.map .produced ++ a.past) : a.Tells event.toList a₂ := by
  have produced : a₁.produced = a.produced ++ event.toList := by
    rw [← a.produced_changed a.state event, Account.produced, past]
    rfl
  have handed : a₁.handed = a.handed := by
    rw [Account.handed, past, Account.handed]
    cases event <;> rfl
  exact ⟨passes.produced.trans produced, passes.handed.trans (congrArg (· ++ _) handed)⟩

theorem ensures_reconcileRule (v : w.Vacant rule h past) (announced : Bool) :
    (reconcileRule rule announced : Prog T (List Event)).Ensures (Pact.desk rule) Team.nobody w
      fun events w' => ∃ h' past', w'.Vacant rule h' past' ∧
        Holding.Reconciled (w.rule? rule) announced h events h' ∧
        (w.account rule).Tells events (w'.account rule) := by
  refine Prog.ensures_request ((Request.handled_existingSlot v).rules.imp ?_)
  rintro answer w₁ ⟨answered, rules⟩
  rcases answered with ⟨rfl, rfl, vacant⟩ | ⟨held, id, ticket, rfl, rfl, seated⟩
  · exact ⟨none, past, vacant, .untracked, .of_same (vacant.past.trans v.past.symm)⟩
  · obtain ⟨time, event, self, there⟩ := seated.reconcile announced
    have known : w₁.rule? rule = w.rule? rule := by rw [World.rule?, rules, World.rule?]
    rw [known] at event there
    refine Prog.ensures_step self ?_
    rw [event]
    have named : ∀ e ∈ (held.state.settle (w.rule? rule) announced time).2.toList, e.ruleId = rule := by
      intro e made
      exact (FiringState.ruleId_settle (Option.mem_toList.mp made)).trans seated.stateRuleId
    refine (ensures_releasing there named _).weaken ?_
    rintro out w₂ ⟨rfl, a', passes, vacant⟩
    have told : (w.account rule).Tells _ a' := passes.tells (by rw [v.past]; rfl)
    refine ⟨_, _, vacant, ?_, ?_⟩
    · exact .tracked time passes.state passes.retired passes.outbox fun none => passes.none (by rw [none]; rfl)
    · exact told.until vacant.past

/-! ### Judging a sample -/

def Pact.judging (rule : RuleId) : Pact where
  others w w' := w.Keeps (· = rule) w'
  self w w' := w.Keeps (· ≠ rule) w' ∧ w.Draws w'
  still w := ⟨.refl _ w, (World.Quiet.refl w).draws⟩
  goesOn h h' := ⟨h.1.trans h'.1, h.2.trans h'.2⟩

theorem Pact.judging_of_desk {w' : World} (self : (Pact.desk rule).self w w') : (Pact.judging rule).self w w' :=
  ⟨self.1, self.2.draws⟩

def Holding.judged (h : Holding) (past : List Happening) (fresh : AlertId) (r : Rule) (value : Float)
    (time : Timestamp) : Account where
  state := (h.state.judge fresh r value time).1
  outbox := h.outbox
  retired := false
  past := ((h.state.judge fresh r value time).2.map .produced).reverse ++ past

theorem World.Seated.judges {r : Rule} {held : Holding}
    (seated : w.Seated rule id ticket { held.account past with retired := false }) (known : r.id = rule)
    (value : Float) (time : Timestamp) :
    (w.judge id r value time).2 = (held.state.judge w.ids.next r value time).2 ∧
      (∀ event ∈ (held.state.judge w.ids.next r value time).2, event.ruleId = rule) ∧
      w.Keeps (· ≠ rule) (w.judge id r value time).1 ∧ w.Draws (w.judge id r value time).1 ∧
      (w.judge id r value time).1.ids =
        w.ids.after (Event.opens (held.state.judge w.ids.next r value time).2).length ∧
      (w.judge id r value time).1.Seated rule id ticket (held.judged past w.ids.next r value time) := by
  obtain ⟨events, keeps, draws, ids, there⟩ := seated.judge known rfl value time
  refine ⟨events, fun event made => ?_, keeps, draws, ids, there⟩
  have own := seated.stateRuleId
  exact (FiringState.ruleId_judge (known.trans own.symm) made).trans own

theorem ensures_evaluate {r : Rule} {metric : String} (v : w.Vacant rule h past)
    (known : w.rule? rule = some r) (named : r.id = rule) (watches : r.metricKey = metric) (value : Float)
    (time : Timestamp) :
    (evaluate rule metric value time : Prog T (List Event)).Ensures (Pact.judging rule) Team.nobody w
      fun events w' => ∃ fresh a', events = ((h.getD (.initial rule)).state.judge fresh r value time).2 ∧
        ((h.getD (.initial rule)).judged past fresh r value time).Passes events a' ∧
        w'.Vacant rule (some a'.holding) a'.past := by
  have handled : (Request.slot rule).Handled (Pact.judging rule) w _ :=
    (Request.handled_slot v).rules.under (fun keeps => keeps) Pact.judging_of_desk
  refine Prog.ensures_request (handled.imp fun id w₁ ⟨⟨ticket, seated⟩, rules⟩ => Prog.ensures_read ?_)
  have found : (w₁.rule? rule).filter (·.metricKey = metric) = some r := by
    rw [World.rule?, rules, ← World.rule?, known]
    simp [watches]
  rw [found]
  obtain ⟨events, about, keeps, draws, -, there⟩ := seated.judges named value time
  refine Prog.ensures_step ⟨keeps, draws⟩ ?_
  rw [events]
  refine (ensures_leaving there about _).imp (fun keeps => keeps) Pact.judging_of_desk (fun team => team) ?_
  rintro out w₂ ⟨same, a', passes, vacant⟩
  exact ⟨w₁.ids.next, a', same, same ▸ passes, vacant⟩

variable {C : Type} {t : Tasks T C}

theorem Prog.advance_read {f : World → α} {next : α → Prog T β} :
    (read f >>= next).advance t w = (next (f w)).advance t w := rfl

theorem Prog.advance_slot {β : Type} (v : w.Vacant rule h past) (next : SlotId → Prog T β) :
    ∃ id w₁ ticket, (request (.slot rule) >>= next).advance t w = (next id).advance t w₁ ∧
      (Pact.desk rule).self w w₁ ∧
      w₁.Seated rule id ticket { (h.getD (.initial rule)).account past with retired := false } := by
  obtain ⟨takes, begun⟩ := v.ticketed
  obtain ⟨c, claimed, -, mode, self, seated⟩ := begun.claim w.takeTicket.2 .create (by simp)
  obtain ⟨self', there⟩ := seated.take
  rw [if_pos mode] at there
  refine ⟨c.slot, _, c.ticket, ?_, (Pact.desk rule).goesOn ((Pact.desk rule).goesOn takes self) self', there⟩
  change (Prog.ask (.slot rule) next).advance t w = _
  have granted := seated.pollClaim
  have started : (Request.slot rule).start w.takeTicket.2 w.takeTicket.1 =
      ((Request.claim w.takeTicket.1 w.takeTicket.2 rule .create).1, some c) := Prod.ext rfl claimed
  rw [advance]
  simp only [started, Request.poll, granted, Request.answer]

end Visits

end ThresholdAlerts
