import ThresholdAlerts.Proofs.Books
import ThresholdAlerts.Proofs.Reliance
/-! The desk of a rule: its slot, and what happened to its events. Whoever sits at a desk, alone in the queue
of the slot, relies on others to keep away from it and keeps away from the desks of all other rules. Main
statements: who asks for a free desk gets it, and who hands over events at a desk passes them on in order,
whatever is done at other desks in the meantime. -/
namespace ThresholdAlerts

open Function

/-- What is about some rules stays as it is, and so do the definitions of the rules. -/
structure World.Keeps (p : RuleId → Prop) (w w' : World) : Prop where
  coherent : w.engine.tracker.Coherent → w'.engine.tracker.Coherent
  found : ∀ {rule}, p rule → w'.engine.tracker.find? rule = w.engine.tracker.find? rule
  slot : ∀ {rule}, p rule → w'.engine.tracker.slotFor rule = w.engine.tracker.slotFor rule
  past : ∀ {rule}, p rule → (w'.account rule).past = (w.account rule).past
  rules : w'.engine.rules = w.engine.rules
  reconciled : w'.engine.reconciled = w.engine.reconciled

namespace World

variable {w w' w₁ w₂ w₃ : World} {p q : RuleId → Prop} {rule : RuleId} {id : SlotId} {ticket : Ticket}
  {a : Account} {news : List Happening} {event : Event}

theorem Keeps.refl (p : RuleId → Prop) (w : World) : w.Keeps p w :=
  ⟨id, fun _ => rfl, fun _ => rfl, fun _ => rfl, rfl, rfl⟩

theorem Keeps.trans (h : w₁.Keeps p w₂) (h' : w₂.Keeps p w₃) : w₁.Keeps p w₃ :=
  ⟨h'.coherent ∘ h.coherent, fun about => (h'.found about).trans (h.found about),
    fun about => (h'.slot about).trans (h.slot about), fun about => (h'.past about).trans (h.past about),
    h'.rules.trans h.rules, h'.reconciled.trans h.reconciled⟩

theorem Keeps.mono (h : w.Keeps p w') (fewer : ∀ {rule}, q rule → p rule) : w.Keeps q w' :=
  ⟨h.coherent, fun about => h.found (fewer about), fun about => h.slot (fewer about),
    fun about => h.past (fewer about), h.rules, h.reconciled⟩

theorem Keeps.account (h : w.Keeps p w') (about : p rule) : w'.account rule = w.account rule := by
  have slot := h.slot about
  have past := h.past about
  simp only [World.account, slot] at past ⊢
  rw [past]

/-- Something is noted, and no desk is touched. -/
structure Notes (news : List Happening) (w w' : World) : Prop where
  slots : w'.engine.tracker.slots = w.engine.tracker.slots
  index : w'.engine.tracker.index = w.engine.tracker.index
  nextSlot : w'.engine.tracker.nextSlot = w.engine.tracker.nextSlot
  rules : w'.engine.rules = w.engine.rules
  reconciled : w'.engine.reconciled = w.engine.reconciled
  journal : w'.journal = news ++ w.journal
  ids : w'.ids = w.ids

theorem Notes.find? (h : w.Notes news w') (rule : RuleId) :
    w'.engine.tracker.find? rule = w.engine.tracker.find? rule := by
  rw [Tracker.find?, h.index, Tracker.find?]

theorem Notes.slot (h : w.Notes news w') (id : SlotId) : w'.slot id = w.slot id := by
  rw [World.slot, Tracker.slot, h.slots]
  rfl

theorem Notes.slotFor (h : w.Notes news w') (rule : RuleId) :
    w'.engine.tracker.slotFor rule = w.engine.tracker.slotFor rule := by
  rw [Tracker.slotFor, h.find?, Tracker.slotFor, show w'.engine.tracker.slot = w.engine.tracker.slot from funext h.slot]

theorem Notes.coherent (h : w.Notes news w') (c : w.engine.tracker.Coherent) : w'.engine.tracker.Coherent :=
  (resembles_of_same h.slots h.index h.nextSlot).coherent c

theorem Notes.keeps (h : w.Notes news w') (others : ∀ n ∈ news, ¬ p n.ruleId) : w.Keeps p w' := by
  refine ⟨h.coherent, fun _ => h.find? _, fun _ => h.slotFor _, fun {rule} about => ?_, h.rules, h.reconciled⟩
  have none : news.filter (·.ruleId = rule) = [] := by
    rw [List.filter_eq_nil_iff]
    intro n mem same
    exact others n mem (of_decide_eq_true same ▸ about)
  rw [World.account, World.account, h.journal, List.filter_append, none, List.nil_append]

theorem Elsewhere.notes (h : w.Elsewhere w') : w.Notes [] w' := by
  obtain ⟨engine, -, journal, ids⟩ := h.engine
  exact ⟨by rw [engine], by rw [engine], by rw [engine], by rw [engine], by rw [engine], journal, ids⟩

theorem Elsewhere.keeps (h : w.Elsewhere w') (p : RuleId → Prop) : w.Keeps p w' :=
  h.notes.keeps (by simp)

theorem Alters.keeps (h : w.Alters id news w') (coherent : w.engine.tracker.Coherent)
    (found : w.engine.tracker.find? rule = some id) (named : ∀ n ∈ news, n.ruleId = rule)
    (reconciled : w'.engine.reconciled = w.engine.reconciled) : w.Keeps (· ≠ rule) w' :=
  ⟨fun _ => h.rewrites.coherent coherent (coherent.get found), fun _ => h.rewrites.find? _,
    fun ne => h.rewrites.slotFor coherent found ne,
    fun ne => congrArg Account.past (h.account_other coherent found named ne), h.rules, reconciled⟩

theorem Quiet.refl (w : World) : w.Quiet w := ⟨rfl, rfl⟩

theorem Quiet.trans (h : w₁.Quiet w₂) (h' : w₂.Quiet w₃) : w₁.Quiet w₃ :=
  ⟨h'.ids.trans h.ids, h'.openings.trans h.openings⟩

theorem Notes.quiet (h : w.Notes news w') (silent : ∀ n ∈ news, n.produced? = none) : w.Quiet w' := by
  refine ⟨h.ids, ?_⟩
  have none : news.filterMap Happening.produced? = [] := List.filterMap_eq_nil_iff.mpr silent
  rw [openings, h.journal, List.filterMap_append, none, List.nil_append, openings]

theorem quiet_of_names (names : w.Quiet w' ∨ w.Names w') (ids : w'.ids = w.ids) : w.Quiet w' :=
  names.resolve_right fun named => by
    have taken := congrArg Supply.taken (ids.symm.trans named.ids)
    exact absurd taken (Nat.succ_ne_self _).symm

/-! ### Steps of whoever hands over events -/

/-- Neither the supply of ids nor the mark of the generation is touched. -/
def Unmarked (w w' : World) : Prop :=
  w'.ids = w.ids ∧ w'.engine.reconciled = w.engine.reconciled

theorem Unmarked.onTracker (h : w.Unmarked w') (f : Tracker → Tracker) : w.Unmarked (w'.onTracker f) :=
  ⟨h.1, h.2⟩

theorem unmarked_abandon (w : World) (event : Event) (attempts : Nat) (error : SinkError) :
    w.Unmarked (w.abandon event attempts error) := by
  simp only [Unmarked, abandon, readCalendar, count, note, onEngine, and_self]

theorem unmarked_queueBehind (w : World) (id : SlotId) (event : Event) :
    w.Unmarked (w.queueBehind id event) := by
  simp only [queueBehind]
  generalize (w.slot id).outbox.enqueue event w.clock = put
  obtain ⟨outbox, result⟩ := put
  cases result with
  | overflow event =>
    obtain ⟨ids, reconciled⟩ :=
      (w.onTracker (·.setOutbox id outbox)).unmarked_abandon event 0 (.backlogFull outbox.length)
    have unmarked : w.Unmarked ((w.onTracker (·.setOutbox id outbox)).abandon event 0
        (.backlogFull outbox.length)) := ⟨ids, reconciled⟩
    exact unmarked.onTracker _
  | _ => exact ⟨rfl, rfl⟩

theorem unmarked_firstFailure (w : World) (id : SlotId) (event : Event) (error : SinkError) :
    w.Unmarked (w.firstFailure id event error) := by
  rw [firstFailure]
  split
  · exact ⟨rfl, rfl⟩
  · exact (w.count .sinkFailure).unmarked_abandon ..

theorem unmarked_failedAgain (w : World) (id : SlotId) (front : Delivery) (rest : Outbox)
    (error : SinkError) : w.Unmarked (w.failedAgain id front rest error).1 := by
  simp only [failedAgain]
  split
  · exact ⟨rfl, rfl⟩
  · exact unmarked_abandon ..

theorem unmarked_delivered (w : World) (id : SlotId) (front : Delivery) (rest : Outbox) :
    w.Unmarked (w.delivered id front rest) := by
  rw [delivered]
  split <;> exact ⟨rfl, rfl⟩

end World

/-! ### Sitting at a desk -/

def Pact.desk (rule : RuleId) : Pact where
  others w w' := w.Keeps (· = rule) w'
  self w w' := w.Keeps (· ≠ rule) w' ∧ w.Quiet w'
  still w := ⟨.refl _ w, .refl w⟩
  goesOn h h' := ⟨h.1.trans h'.1, h.2.trans h'.2⟩

/-- Somebody holds the slot of a rule and nobody waits for it; the account of the rule is `a`. -/
structure World.Seated (w : World) (rule : RuleId) (id : SlotId) (ticket : Ticket) (a : Account) : Prop where
  coherent : w.engine.tracker.Coherent
  found : w.engine.tracker.find? rule = some id
  queue : (w.slot id).queue = [ticket]
  account : w.account rule = a

namespace World.Seated

variable {w w' : World} {rule : RuleId} {id : SlotId} {ticket : Ticket} {a : Account}
  {news : List Happening}

theorem others (h : w.Seated rule id ticket a) (keeps : w.Keeps (· = rule) w') :
    w'.Seated rule id ticket a := by
  have found := (keeps.found rfl).trans h.found
  have slot : w'.slot id = w.slot id := by
    have same := keeps.slot rfl
    rw [Tracker.slotFor_of_find found, Tracker.slotFor_of_find h.found] at same
    exact same
  exact ⟨keeps.coherent h.coherent, found, slot ▸ h.queue, (keeps.account rfl).trans h.account⟩

theorem outbox (h : w.Seated rule id ticket a) : (w.slot id).outbox = a.outbox := by
  rw [← h.account, World.account_of_find h.found]

theorem state (h : w.Seated rule id ticket a) : (w.slot id).state = a.state := by
  rw [← h.account, World.account_of_find h.found]

theorem retired (h : w.Seated rule id ticket a) : (w.slot id).retired = a.retired := by
  rw [← h.account, World.account_of_find h.found]

theorem noted (h : w.Seated rule id ticket a) (notes : w.Notes news w')
    (about : ∀ n ∈ news, n.ruleId = rule ∧ n.produced? = none) :
    (Pact.desk rule).self w w' ∧ w'.Seated rule id ticket { a with past := news ++ a.past } := by
  have keeps : w.Keeps (· ≠ rule) w' := notes.keeps fun n mem ne => ne (about n mem).1
  have all : news.filter (·.ruleId = rule) = news :=
    List.filter_eq_self.mpr fun n mem => decide_eq_true (about n mem).1
  refine ⟨⟨keeps, notes.quiet fun n mem => (about n mem).2⟩, keeps.coherent h.coherent,
    (notes.find? rule).trans h.found, notes.slot id ▸ h.queue, ?_⟩
  rw [← h.account, World.account, notes.slotFor, notes.journal, List.filter_append, all]
  rfl

theorem alters (h : w.Seated rule id ticket a) (alters : w.Alters id news w')
    (named : ∀ n ∈ news, n.ruleId = rule) (names : w.Quiet w' ∨ w.Names w') (unmarked : w.Unmarked w') :
    (Pact.desk rule).self w w' ∧ w'.Seated rule id ticket (w'.account rule) := by
  have keeps := alters.keeps h.coherent h.found named unmarked.2
  have queue := alters.rewrites.queue (h.coherent.get h.found)
  exact ⟨⟨keeps, World.quiet_of_names names unmarked.1⟩, keeps.coherent h.coherent,
    (alters.rewrites.find? _).trans h.found, queue.trans h.queue, rfl⟩

end World.Seated

/-! ### Sending an event -/

theorem Request.handled_deliver {w : World} {rule : RuleId} {id : SlotId} {ticket : Ticket} {a : Account}
    {event : Event} (seated : w.Seated rule id ticket a) (named : event.ruleId = rule) :
    (Request.deliver event).Handled (Pact.desk rule) w fun answer w' =>
      w'.Seated rule id ticket { a with past := .answered event answer :: .sent event :: a.past } := by
  have sends : w.Notes [.sent event] ((Request.deliver event).start w.takeTicket.2 w.takeTicket.1).1 :=
    ⟨rfl, rfl, rfl, rfl, rfl, rfl, rfl⟩
  have sent := seated.noted sends (by simpa [Happening.ruleId, Happening.produced?] using named)
  refine ⟨sent.1, fun w' _ => w'.Seated rule id ticket { a with past := .sent event :: a.past }, sent.2,
    fun here others => here.others others, fun {w' w'' wait wait'} here polled => ?_,
    fun {w' w'' wait answer} here polled => ?_⟩
  all_goals
    obtain ⟨flight, limit⟩ := wait
    obtain ⟨sink, same⟩ := flight.world_poll w' fun sink deed => sink.deliver deed event
    simp only [poll] at polled
    generalize flight.poll w' _ = flown at polled same
    obtain ⟨w₁, flight'⟩ := flown
    obtain rfl : w₁ = { w' with sink } := same
    dsimp only at polled
  · split at polled
    · exact absurd (Prod.mk.inj polled).2 (by simp)
    · split at polled
      · exact absurd (Prod.mk.inj polled).2 (by simp)
      · obtain ⟨rfl, -⟩ := Prod.mk.inj polled
        have waits : w'.Notes [] { w' with sink } := ⟨rfl, rfl, rfl, rfl, rfl, rfl, rfl⟩
        exact here.noted waits (by simp)
  · have answered (got : Except SinkError Unit)
        (same : w'' = ({ w' with sink }.note (.answered event got)).moved) :
        (Pact.desk rule).self w' w'' ∧ w''.Seated rule id ticket
          { a with past := .answered event got :: .sent event :: a.past } := by
      have notes : w'.Notes [.answered event got] w'' := same ▸ ⟨rfl, rfl, rfl, rfl, rfl, rfl, rfl⟩
      exact here.noted notes (by simpa [Happening.ruleId, Happening.produced?] using named)
    split at polled
    · next got _ =>
      obtain ⟨rfl, got⟩ := Prod.mk.inj polled
      cases got
      exact answered _ rfl
    · split at polled
      · obtain ⟨rfl, got⟩ := Prod.mk.inj polled
        cases got
        exact answered _ rfl
      · exact absurd (Prod.mk.inj polled).2 (by simp)

/-! ### Handing over events -/

def Event.smooth (e : Event) : List Happening :=
  [.answered e (.ok ()), .sent e, .handed e]

/-- No call to the sink was refused. -/
def Happening.AllAccepted (news : List Happening) : Prop :=
  ∀ e error, Happening.answered e (.error error) ∉ news

/-- Events are handed over in order. The firing state stays as it is, and what waits afterwards waited before
or is one of the events; while every call is accepted nothing waits. -/
structure Account.Passes (events : List Event) (a a' : Account) : Prop where
  state : a'.state = a.state
  retired : a'.retired = a.retired
  outbox : ∀ d ∈ a'.outbox, (∃ d₀ ∈ a.outbox, d₀.event = d.event) ∨ d.event ∈ events
  none : events = [] → a'.outbox = a.outbox
  produced : a'.produced = a.produced
  handed : a'.handed = a.handed ++ events
  past : ∃ news, a'.past = news ++ a.past ∧ (Happening.AllAccepted news → a.outbox = [] →
    a'.outbox = [] ∧ news = (events.reverse.map Event.smooth).flatten)

theorem Account.Passes.refl (a : Account) : a.Passes [] a :=
  ⟨rfl, rfl, fun d mem => .inl ⟨d, mem, rfl⟩, fun _ => rfl, rfl, (List.append_nil _).symm, [], rfl,
    fun _ empty => ⟨empty, rfl⟩⟩

theorem Account.Passes.cons {a₁ a₂ a₃ : Account} {event : Event} {events : List Event}
    (h : a₁.Passes [event] a₂) (h' : a₂.Passes events a₃) : a₁.Passes (event :: events) a₃ := by
  obtain ⟨news, past, smooth⟩ := h.past
  obtain ⟨news', past', smooth'⟩ := h'.past
  have handed : a₃.handed = a₁.handed ++ event :: events := by
    rw [h'.handed, h.handed, List.append_assoc, List.singleton_append]
  refine ⟨h'.state.trans h.state, h'.retired.trans h.retired, fun d mem => ?_, nofun,
    h'.produced.trans h.produced, handed, news' ++ news, by rw [past', past, List.append_assoc], fun accepted empty => ?_⟩
  · rcases h'.outbox d mem with ⟨d₀, mem₀, same⟩ | new
    · rcases h.outbox d₀ mem₀ with ⟨d₁, mem₁, same₁⟩ | new
      · exact .inl ⟨d₁, mem₁, same₁.trans same⟩
      · exact .inr (same ▸ List.mem_cons.mpr (.inl (List.mem_singleton.mp new)))
    · exact .inr (List.mem_cons_of_mem _ new)
  · obtain ⟨empty₂, shape⟩ := smooth (fun e error mem => accepted e error (List.mem_append_right _ mem)) empty
    obtain ⟨empty₃, shape'⟩ := smooth' (fun e error mem => accepted e error (List.mem_append_left _ mem)) empty₂
    exact ⟨empty₃, by simp [shape, shape']⟩

section Handing

variable {T : Type} {team : Team T} {w : World} {rule : RuleId} {id : SlotId} {ticket : Ticket}
  {a : Account} {event : Event}

/-- An event that failed at first waits, or is given up. -/
theorem World.Seated.firstFailure (seated : w.Seated rule id ticket a) (error : SinkError)
    (named : event.ruleId = rule) (empty : a.outbox = []) :
    let w' := w.firstFailure id event error
    (Pact.desk rule).self w w' ∧ ∃ a', w'.Seated rule id ticket a' ∧ a'.state = a.state ∧
      a'.retired = a.retired ∧ (∀ d ∈ a'.outbox, d.event = event) ∧ a'.produced = a.produced ∧
      a'.handed = a.handed ∧ ∃ news, a'.past = news ++ a.past := by
  intro w'
  have none : (w.slot id).outbox = [] := seated.outbox.trans empty
  obtain ⟨news, alters, about, turn⟩ : ∃ news, w.Alters id news w' ∧ (∀ n ∈ news, n.ruleId = rule) ∧
      Turn .serving rule (w.moment rule w') (w.account rule) (some { stage := .failed event error })
        (w'.account rule) (some {}) := World.firstFailure_turn seated.found named none
  have edit : Edit .serving rule id w { stage := .failed event error } w' (some {}) := .firstFailure none
  obtain ⟨self, there⟩ := seated.alters alters about edit.names (World.unmarked_firstFailure ..)
  refine ⟨self, _, there, ?_⟩
  rw [seated.account] at turn
  generalize w'.account rule = a' at turn
  cases turn with
  | postponed none same => exact ⟨rfl, rfl, by simpa using same, rfl, rfl, [], rfl⟩
  | dropped none => exact ⟨rfl, rfl, by simp [empty], a.produced_cons rfl, rfl, [_], rfl⟩

/-- An event that finds others waiting is put behind them, unless it cancels the last or finds no room. -/
theorem World.Seated.queueBehind (seated : w.Seated rule id ticket a) (named : event.ruleId = rule)
    (waits : a.outbox ≠ []) :
    let w' := w.queueBehind id event
    (Pact.desk rule).self w w' ∧ ∃ a', w'.Seated rule id ticket a' ∧ a'.state = a.state ∧
      a'.retired = a.retired ∧ (∀ d ∈ a'.outbox, d ∈ a.outbox ∨ d.event = event) ∧ a'.produced = a.produced ∧
      a'.handed = a.handed ∧ ∃ news, a'.past = news ++ a.past := by
  intro w'
  have some : (w.slot id).outbox ≠ [] := seated.outbox ▸ waits
  obtain ⟨news, alters, about, turn⟩ : ∃ news, w.Alters id news w' ∧ (∀ n ∈ news, n.ruleId = rule) ∧
      Turn .serving rule (w.moment rule w') (w.account rule) (.some { stage := .handed event })
        (w'.account rule) (.some {}) := World.queueBehind_turn seated.found named some
  have edit : Edit .serving rule id w { stage := .handed event } w' (.some {}) := .queueBehind some
  obtain ⟨self, there⟩ := seated.alters alters about edit.names (World.unmarked_queueBehind ..)
  refine ⟨self, _, there, ?_⟩
  rw [seated.account] at turn
  generalize w'.account rule = a' at turn
  cases turn with
  | queued waits kept room same =>
    refine ⟨rfl, rfl, fun d mem => ?_, rfl, rfl, [], rfl⟩
    rcases List.mem_append.mp mem with old | new
    · exact .inl old
    · exact .inr (List.mem_singleton.mp new ▸ same)
  | cancelled =>
    exact ⟨rfl, rfl, fun d mem => .inl (List.dropLast_subset _ mem), a.produced_cons rfl, rfl, [_], rfl⟩
  | overflow => exact ⟨rfl, rfl, fun d mem => .inl mem, a.produced_cons rfl, rfl, [_], rfl⟩

theorem ensures_dispatch (seated : w.Seated rule id ticket a) (named : event.ruleId = rule) :
    (dispatch id event : Prog T Unit).Ensures (Pact.desk rule) team w fun _ w' =>
      ∃ a', w'.Seated rule id ticket a' ∧ a.Passes [event] a' := by
  have notes : w.Notes [.handed event] (w.hand event) := ⟨rfl, rfl, rfl, rfl, rfl, rfl, rfl⟩
  obtain ⟨hands, handed⟩ := seated.noted notes
    (by simpa [Happening.ruleId, Happening.produced?] using named)
  refine Prog.ensures_modify hands (Prog.ensures_read ?_)
  rw [handed.outbox]
  cases outbox : a.outbox with
  | nil =>
    refine Prog.ensures_request ((Request.handled_deliver handed named).imp fun answer w₁ answered => ?_)
    cases answer with
    | ok _ =>
      refine Prog.ensures_pure ⟨_, answered, rfl, rfl, by simp [outbox], fun _ => rfl, rfl,
        a.handed_hand event [_, _] rfl, event.smooth, rfl, fun _ empty => ⟨empty, by simp⟩⟩
    | error error =>
      obtain ⟨self, a', there, state, retired, waits, produced, hands, news, past⟩ :=
        answered.firstFailure error named outbox
      refine ⟨self, a', there, state, retired, fun d mem => .inr (List.mem_singleton.mpr (waits d mem)),
        by simp, produced, hands.trans (a.handed_hand event [_, _] rfl),
        news ++ [.answered event (.error error), .sent event, .handed event], ?_, fun accepted => ?_⟩
      · rw [past]
        simp
      · exact absurd (by simp) (accepted event error)
  | cons d rest =>
    have waits : a.outbox ≠ [] := by simp [outbox]
    obtain ⟨self, a', there, state, retired, waiting, produced, hands, news, past⟩ := handed.queueBehind named waits
    refine ⟨self, a', there, state, retired, fun d' mem => ?_, by simp, produced,
      hands.trans (a.handed_hand event [] rfl), news ++ [.handed event], ?_, fun _ empty => absurd empty waits⟩
    · rcases waiting d' mem with old | new
      · exact .inl ⟨d', old, rfl⟩
      · exact .inr (List.mem_singleton.mpr new)
    · rw [past]
      simp

theorem ensures_dispatchAll [team.Monotone] (seated : w.Seated rule id ticket a) (events : List Event)
    (named : ∀ event ∈ events, event.ruleId = rule) :
    (dispatchAll id events : Prog T Unit).Ensures (Pact.desk rule) team w fun _ w' =>
      ∃ a', w'.Seated rule id ticket a' ∧ a.Passes events a' := by
  induction events generalizing w a with
  | nil => exact ⟨a, seated, .refl a⟩
  | cons event rest ih =>
    obtain ⟨here, others⟩ := List.forall_mem_cons.mp named
    refine (ensures_dispatch seated here).bind fun _ w₁ ⟨a₁, seated₁, passes⟩ => ?_
    exact (ih seated₁ others).weaken fun _ w₂ ⟨a₂, seated₂, passes'⟩ => ⟨a₂, seated₂, passes.cons passes'⟩

end Handing

end ThresholdAlerts
