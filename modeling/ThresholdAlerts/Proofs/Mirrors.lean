import ThresholdAlerts.Proofs.Alone
import ThresholdAlerts.Proofs.Passages
/-! A sink that does at once what it is asked. Main statement: while calls are made alone the journal tells truly
of the store, each answer in it being the one that the store gave. -/
namespace ThresholdAlerts

open Prog Relation

/-! ### Leaving the sink alone -/

def Happening.isAnswer : Happening → Bool
  | .answered .. => true
  | _ => false

/-- The sink is left alone, and no answer of it is noted. -/
structure World.Mute (w w' : World) : Prop where
  sink : w'.sink = w.sink
  journal : ∃ news, w'.journal = news ++ w.journal ∧ ∀ n ∈ news, n.isAnswer = false

namespace World

variable {w w' : World}

theorem Mute.of_same (sink : w'.sink = w.sink) (journal : w'.journal = w.journal) : w.Mute w' :=
  ⟨sink, [], journal, by simp⟩

theorem Mute.refl (w : World) : w.Mute w :=
  .of_same rfl rfl

theorem Mute.trans {w₁ w₂ w₃ : World} (h : w₁.Mute w₂) (h' : w₂.Mute w₃) : w₁.Mute w₃ := by
  obtain ⟨sink, news, journal, silent⟩ := h
  obtain ⟨sink', news', journal', silent'⟩ := h'
  refine ⟨sink'.trans sink, news' ++ news, by rw [journal', journal, List.append_assoc], fun n mem => ?_⟩
  exact (List.mem_append.mp mem).elim (silent' n) (silent n)

theorem Mute.note (h : w.Mute w') (what : Happening) (silent : what.isAnswer = false) : w.Mute (w'.note what) :=
  h.trans ⟨rfl, [what], rfl, by simpa using silent⟩

theorem Mute.onEngine (h : w.Mute w') (f : Engine → Engine) : w.Mute (w'.onEngine f) :=
  h.trans (.of_same rfl rfl)

theorem mute_onTracker (w : World) (f : Tracker → Tracker) : w.Mute (w.onTracker f) :=
  .of_same rfl rfl

theorem mute_onRules (w : World) (f : RuleStore → RuleStore) : w.Mute (w.onRules f) :=
  .of_same rfl rfl

theorem mute_endTurn (w : World) : w.Mute w.endTurn :=
  .of_same rfl rfl

theorem mute_count (w : World) (c : Stats.Count) : w.Mute (w.count c) :=
  .of_same rfl rfl

theorem mute_readCalendar (w : World) : w.Mute w.readCalendar.1 :=
  .of_same rfl rfl

theorem mute_leave (w : World) (id : SlotId) : w.Mute (w.leave id) :=
  .of_same rfl rfl

theorem mute_release (w : World) (id : SlotId) : w.Mute (w.release id) :=
  .of_same rfl rfl

theorem mute_change (w : World) (id : SlotId) (c : FiringState.Change) : w.Mute (w.change id c).1 := by
  have puts := w.mute_onTracker fun _ => (w.engine.tracker.change id c).1
  simp only [change]
  split
  · next event _ => exact puts.note (.produced event) rfl
  · exact puts

theorem mute_transition (w : World) (id : SlotId) (r : Rule) (breached : Bool) (value : Float) (time : Timestamp) :
    w.Mute (w.transition id r breached value time).1 := by
  have changes := w.mute_change id (.transition w.ids.next r breached value time)
  rw [transition]
  dsimp only
  split
  · exact changes.trans (.of_same rfl rfl)
  · exact changes

theorem mute_judge (w : World) (id : SlotId) (r : Rule) (value : Float) (time : Timestamp) :
    w.Mute (w.judge id r value time).1 := by
  rw [judge]
  split
  · exact .of_same rfl rfl
  · next breached _ =>
    have synced := (w.mute_count .evaluation).trans ((w.count .evaluation).mute_change id (.sync r time))
    exact synced.trans (mute_transition _ id r breached value time)

theorem mute_dismiss (w : World) (id : SlotId) : w.Mute (w.dismiss id) := by
  rw [dismiss]
  split <;> exact .of_same rfl rfl

theorem mute_reconcile (w : World) (id : SlotId) (rule : RuleId) (announced : Bool) :
    w.Mute (w.reconcile id rule announced).1 := by
  rw [reconcile]
  dsimp only
  split
  · exact w.mute_readCalendar.trans (mute_change ..)
  · have removed := w.mute_readCalendar.trans
      (w.readCalendar.1.mute_change id (.force .ruleRemoved w.readCalendar.2))
    exact removed.trans (.of_same rfl rfl)

theorem mute_hand (w : World) (event : Event) : w.Mute (w.hand event) :=
  (w.mute_count (.event event)).note (.handed event) rfl

theorem mute_abandon (w : World) (event : Event) (attempts : Nat) (error : SinkError) :
    w.Mute (w.abandon event attempts error) := by
  refine ⟨(w.spares_abandon event attempts error).sink, [.abandoned event attempts],
    (w.alters_abandon 0 event attempts error).journal, by simp [Happening.isAnswer]⟩

theorem mute_queueBehind (w : World) (id : SlotId) (event : Event) : w.Mute (w.queueBehind id event) := by
  simp only [queueBehind]
  generalize (w.slot id).outbox.enqueue event w.clock = put
  obtain ⟨outbox, result⟩ := put
  have puts := w.mute_onTracker (·.setOutbox id outbox)
  cases result with
  | queued => exact puts.onEngine _
  | collapsed opening => exact ((puts.onEngine _).note (.cancelled opening event) rfl).onEngine _
  | overflow event => exact (puts.trans (mute_abandon ..)).onEngine _

theorem mute_firstFailure (w : World) (id : SlotId) (event : Event) (error : SinkError) :
    w.Mute (w.firstFailure id event error) := by
  rw [firstFailure]
  split
  · exact .of_same rfl rfl
  · exact (w.mute_count .sinkFailure).trans (mute_abandon ..)

theorem mute_delivered (w : World) (id : SlotId) (front : Delivery) (rest : Outbox) :
    w.Mute (w.delivered id front rest) := by
  rw [delivered]
  split <;> exact .of_same rfl rfl

theorem mute_failedAgain (w : World) (id : SlotId) (front : Delivery) (rest : Outbox) (error : SinkError) :
    w.Mute (w.failedAgain id front rest error).1 := by
  simp only [failedAgain]
  split
  · exact .of_same rfl rfl
  · have failed : w.Mute ((w.count .sinkFailure).failDelivery front error).1 := .of_same rfl rfl
    exact (failed.trans (mute_onTracker _ _)).trans (mute_abandon ..)

end World

/-! ### Programs that leave the sink alone between their requests -/

/-- Whatever it is answered, the program makes no requests but those of `asks` and does no tasks but those of
`tasks`, and leaves the sink alone in between. -/
def Prog.Minds (asks : Request → Prop) (tasks : T → Prop) : Prog T α → World → Prop
  | .done _, _ => True
  | .get next, w => (next w).Minds asks tasks w
  | .set w' next, w => w.Mute w' ∧ next.Minds asks tasks w'
  | .ask r next, _ => asks r ∧ ∀ a w', (next a).Minds asks tasks w'
  | .fork ts next, _ => (∀ t ∈ ts, tasks t) ∧ ∀ results w', (next results).Minds asks tasks w'

section Programs

variable {T : Type} {asks : Request → Prop} {tasks : T → Prop} {w : World}

theorem Prog.minds_bind {p : Prog T α} {f : α → Prog T β} (first : p.Minds asks tasks w)
    (next : ∀ a w', (f a).Minds asks tasks w') : (p >>= f).Minds asks tasks w := by
  change (p.bind f).Minds asks tasks w
  induction p generalizing w with
  | done a => exact next a w
  | get k ih => exact ih w first
  | set w' k ih => exact ⟨first.1, ih first.2⟩
  | ask r k ih => exact ⟨first.1, fun a w' => ih a (first.2 a w')⟩
  | fork ts k ih => exact ⟨first.1, fun results w' => ih results (first.2 results w')⟩

theorem Prog.minds_pure (a : α) (w : World) : (pure a : Prog T α).Minds asks tasks w := trivial

theorem Prog.minds_read (f : World → α) (w : World) : (read f : Prog T α).Minds asks tasks w := trivial

theorem Prog.minds_modify {f : World → World} (mute : ∀ w, World.Mute w (f w)) (w : World) :
    (modify f : Prog T Unit).Minds asks tasks w := ⟨mute w, trivial⟩

theorem Prog.minds_step {f : World → World × α} (mute : ∀ w, World.Mute w (f w).1) (w : World) :
    (step f : Prog T α).Minds asks tasks w := ⟨mute w, trivial⟩

theorem Prog.minds_request {r : Request} (asked : asks r) (w : World) :
    (request r : Prog T r.Answer).Minds asks tasks w := ⟨asked, fun _ _ => trivial⟩

theorem Prog.minds_all {ts : List T} (done : ∀ t ∈ ts, tasks t) (w : World) :
    (all ts : Prog T (List Event)).Minds asks tasks w := ⟨done, fun _ _ => trivial⟩

/-! The rules. -/

theorem minds_fetchRules (fetches : asks .fetch) (w : World) : (fetchRules : Prog T _).Minds asks tasks w := by
  refine minds_bind (minds_modify (·.mute_onRules _) w) fun _ w₁ => ?_
  refine minds_bind (minds_request fetches w₁) fun answer w₂ => ?_
  cases answer with
  | ok rules => exact minds_bind (minds_step (fun w => .of_same rfl rfl) w₂) fun _ _ => minds_pure _ _
  | error e => exact minds_bind (minds_modify (·.mute_onRules _) w₂) fun _ _ => minds_pure _ _

theorem minds_refreshRules (turn : asks .refreshTurn) (fetches : asks .fetch) (w : World) :
    (refreshRules : Prog T _).Minds asks tasks w := by
  refine minds_bind (minds_request turn w) fun _ w₁ => minds_bind (minds_fetchRules fetches w₁) fun _ w₂ => ?_
  exact minds_bind (minds_modify (·.mute_endTurn) w₂) fun _ _ => minds_pure _ _

theorem minds_currentRules (turn : asks .refreshTurn) (fetches : asks .fetch) (w : World) :
    (currentRules : Prog T _).Minds asks tasks w := by
  have ends (w : World) : (do modify (·.endTurn); read (·.engine.rules.snapshot) : Prog T _).Minds asks tasks w :=
    minds_bind (minds_modify (·.mute_endTurn) w) fun _ => minds_read _
  refine minds_bind (minds_read _ w) fun stale w₁ => ?_
  cases stale with
  | false => exact minds_read _ w₁
  | true =>
    refine minds_bind (minds_request turn w₁) fun _ w₂ => minds_bind (minds_read _ w₂) fun stale w₃ => ?_
    cases stale with
    | false => exact ends w₃
    | true => exact minds_bind (minds_fetchRules fetches w₃) fun _ => ends

/-! Work on one rule. -/

theorem minds_dispatch (delivers : ∀ event, asks (.deliver event)) (id : SlotId) (event : Event) (w : World) :
    (dispatch id event : Prog T Unit).Minds asks tasks w := by
  refine minds_bind (minds_modify (·.mute_hand event) w) fun _ w₁ => ?_
  refine minds_bind (minds_read _ w₁) fun empty w₂ => ?_
  cases empty with
  | false => exact minds_modify (fun w => w.mute_queueBehind id event) w₂
  | true =>
    refine minds_bind (minds_request (delivers event) w₂) fun answer w₃ => ?_
    cases answer with
    | ok _ => exact minds_pure _ _
    | error e => exact minds_modify (fun w => w.mute_firstFailure id event e) w₃

theorem minds_dispatchAll (delivers : ∀ event, asks (.deliver event)) (id : SlotId) (events : List Event)
    (w : World) : (dispatchAll id events : Prog T Unit).Minds asks tasks w := by
  induction events generalizing w with
  | nil => exact minds_pure _ _
  | cons event rest ih => exact minds_bind (minds_dispatch delivers id event w) fun _ => ih

theorem minds_evaluate (slots : ∀ rule, asks (.slot rule)) (delivers : ∀ event, asks (.deliver event))
    (rule : RuleId) (metric : String) (value : Float) (time : Timestamp) (w : World) :
    (evaluate rule metric value time : Prog T _).Minds asks tasks w := by
  refine minds_bind (minds_request (slots rule) w) fun id w₁ => minds_bind (minds_read _ w₁) fun known w₂ => ?_
  split
  · next r _ =>
    refine minds_bind (minds_step (fun w => w.mute_judge id r value time) w₂) fun events w₃ => ?_
    refine minds_bind (minds_dispatchAll delivers id events w₃) fun _ w₄ => ?_
    exact minds_bind (minds_modify (·.mute_leave id) w₄) fun _ => minds_pure _
  · exact minds_bind (minds_modify (·.mute_dismiss id) w₂) fun _ => minds_pure _

theorem minds_reconcileRule (slots : ∀ rule, asks (.existingSlot rule))
    (delivers : ∀ event, asks (.deliver event)) (rule : RuleId) (announced : Bool) (w : World) :
    (reconcileRule rule announced : Prog T _).Minds asks tasks w := by
  refine minds_bind (minds_request (slots rule) w) fun slot w₁ => ?_
  cases slot with
  | none => exact minds_pure _ _
  | some id =>
    refine minds_bind (minds_step (fun w => w.mute_reconcile id rule announced) w₁) fun event w₂ => ?_
    refine minds_bind (minds_dispatchAll delivers id event.toList w₂) fun _ w₃ => ?_
    exact minds_bind (minds_modify (·.mute_release id) w₃) fun _ => minds_pure _

theorem minds_drain (delivers : ∀ event, asks (.deliver event)) (id : SlotId) (now : Duration) (outbox : Outbox)
    (report : RetryReport) (w : World) : (drain id now outbox report : Prog T _).Minds asks tasks w := by
  induction outbox generalizing report w with
  | nil => exact minds_pure _ _
  | cons front rest ih =>
    rw [drain]
    split
    · refine minds_bind (minds_request (delivers front.event) w) fun answer w₁ => ?_
      cases answer with
      | ok _ => exact minds_bind (minds_modify (·.mute_delivered id front rest) w₁) fun _ => ih _
      | error e =>
        refine minds_bind (minds_step (fun w => w.mute_failedAgain id front rest e) w₁) fun gone w₂ => ?_
        cases gone with
        | true => exact ih _ w₂
        | false => exact minds_pure _ _
    · exact minds_pure _ _

theorem minds_retryRule (slots : ∀ rule, asks (.existingSlot rule)) (delivers : ∀ event, asks (.deliver event))
    (rule : RuleId) (report : RetryReport) (w : World) : (retryRule rule report : Prog T _).Minds asks tasks w := by
  refine minds_bind (minds_request (slots rule) w) fun slot w₁ => ?_
  cases slot with
  | none => exact minds_bind (minds_modify (·.mute_onTracker _) w₁) fun _ => minds_pure _
  | some id =>
    refine minds_bind (minds_read _ w₁) fun now w₂ => minds_bind (minds_read _ w₂) fun outbox w₃ => ?_
    refine minds_bind (minds_drain delivers id now outbox report w₃) fun report w₄ => ?_
    refine minds_bind (minds_read _ w₄) fun left w₅ => ?_
    split
    · refine minds_bind (minds_modify (fun w => ?_) w₅) fun _ => minds_pure _
      exact (w.mute_onTracker _).trans (World.mute_release _ id)
    · exact minds_bind (minds_modify (·.mute_leave id) w₅) fun _ => minds_pure _

end Programs

/-! ### The calls -/

def Visit.Minds (v : Visit) : Prop :=
  ∀ w, v.program.Minds (fun _ => True) (fun _ => True) w

theorem Visit.minds (v : Visit) : v.Minds := by
  intro w
  cases v with
  | evaluate rule metric value time => exact minds_evaluate (fun _ => trivial) (fun _ => trivial) ..
  | reconcile rule announced => exact minds_reconcileRule (fun _ => trivial) (fun _ => trivial) ..

section Calls

variable {w : World}

theorem minds_reconcileIfNewer (generation : Nat) (w : World) :
    (reconcileIfNewer generation).Minds (fun _ => True) Visit.Minds w := by
  refine minds_bind (minds_step (fun w => ?_) w) fun claimed w₁ => ?_
  · simp only [World.claimGeneration]
    split
    · exact .of_same rfl rfl
    · exact .refl w
  · cases claimed with
    | false => exact minds_pure _ _
    | true => exact minds_bind (minds_read _ w₁) fun _ => minds_all fun v _ => v.minds

theorem minds_takeSample (metric : String) (value : Float) (time : Timestamp) (w : World) :
    (takeSample metric value time).Minds (fun _ => True) Visit.Minds w := by
  have evaluates (w : World) : (do evaluateAll (← currentRules) metric value time : Prog Visit _).Minds
      (fun _ => True) Visit.Minds w := by
    refine minds_bind (minds_currentRules trivial trivial w) fun snapshot w₁ => ?_
    refine minds_bind (minds_reconcileIfNewer _ w₁) fun early w₂ => ?_
    split
    · exact minds_pure _ _
    · exact minds_bind (minds_all (fun v _ => v.minds) w₂) fun _ => minds_pure _
  refine minds_bind (minds_modify (·.mute_count _) w) fun _ w₁ => ?_
  split
  · exact minds_bind (minds_modify (·.mute_count _) w₁) fun _ => evaluates
  · exact evaluates w₁

theorem minds_retryRules (rules : List RuleId) (report : RetryReport) (w : World) :
    (retryRules rules report : Prog Visit _).Minds (fun _ => True) Visit.Minds w := by
  induction rules generalizing report w with
  | nil => exact minds_pure _ _
  | cons rule rest ih => exact minds_bind (minds_retryRule (fun _ => trivial) (fun _ => trivial) ..) fun _ => ih _

theorem minds_announceEdit (rule : RuleId) (w : World) :
    (announceEdit rule).Minds (fun _ => True) Visit.Minds w := by
  have restarts (w : World) : (reconcileRule rule true : Prog Visit _).Minds (fun _ => True) Visit.Minds w :=
    minds_reconcileRule (fun _ => trivial) (fun _ => trivial) rule true w
  refine minds_bind (minds_modify (·.mute_onRules _) w) fun _ w₁ => ?_
  refine minds_bind (minds_refreshRules trivial trivial w₁) fun result w₂ => ?_
  cases result with
  | error e =>
    refine minds_bind (minds_modify (·.mute_onRules _) w₂) fun _ w₃ => ?_
    exact minds_bind (restarts w₃) fun _ => minds_pure _
  | ok snapshot =>
    refine minds_bind (minds_reconcileIfNewer _ w₂) fun _ w₃ => ?_
    exact minds_bind (restarts w₃) fun _ => minds_pure _

theorem minds_refresh (w : World) : refresh.Minds (fun _ => True) Visit.Minds w := by
  refine minds_bind (minds_refreshRules trivial trivial w) fun result w₁ => ?_
  cases result with
  | error e => exact minds_pure _ _
  | ok snapshot => exact minds_bind (minds_reconcileIfNewer _ w₁) fun _ => minds_pure _

theorem Call.minds {c : Call} (routine : c.IsRoutine) (w : World) :
    c.program.Minds (fun _ => True) Visit.Minds w := by
  cases c with
  | sample metric value time => exact minds_bind (minds_takeSample ..) fun _ => minds_pure _
  | announceEdit rule =>
    refine minds_bind (minds_announceEdit rule w) fun result w₁ => ?_
    cases result <;> exact minds_pure _ _
  | refresh =>
    refine minds_bind (minds_refresh w) fun result w₁ => ?_
    cases result <;> exact minds_pure _ _
  | recover => exact routine.elim
  | retry =>
    refine minds_bind ?_ fun _ => minds_pure _
    exact minds_bind (minds_read _ w) fun _ => minds_retryRules _ _
  | health => exact routine.elim

end Calls

/-! ### The store and the journal -/

def AlertStore.take (s : AlertStore) (event : Event) : AlertStore × Except SinkError Unit :=
  let (sink, answer) := Sink.deliver { store := s } .pass event
  (sink.store, answer)

/-- A journal, the newest first, tells truly of a store that was `s₀` at first. -/
inductive AlertStore.Tells (s₀ : AlertStore) : List Happening → AlertStore → Prop
  | nothing : Tells s₀ [] s₀
  | answered {past s} (event : Event) (tells : Tells s₀ past s) :
      Tells s₀ (.answered event (s.take event).2 :: past) (s.take event).1
  | other {past s} {what : Happening} (silent : what.isAnswer = false) (tells : Tells s₀ past s) :
      Tells s₀ (what :: past) s

/-- No call to the sink is scripted, and the journal tells truly of the store. -/
structure World.Mirrors (s₀ : AlertStore) (w : World) : Prop where
  plain : w.sink = { store := w.sink.store }
  tells : s₀.Tells w.journal w.sink.store

section Mirrors

variable {s₀ : AlertStore} {w w' : World}

theorem AlertStore.Tells.append {news past : List Happening} {s : AlertStore} (tells : s₀.Tells past s)
    (silent : ∀ n ∈ news, n.isAnswer = false) : s₀.Tells (news ++ past) s := by
  induction news with
  | nil => exact tells
  | cons what news ih =>
    obtain ⟨here, others⟩ := List.forall_mem_cons.mp silent
    exact .other here (ih others)

theorem World.Mirrors.mute (mirrors : w.Mirrors s₀) (mute : w.Mute w') : w'.Mirrors s₀ := by
  obtain ⟨plain, tells⟩ := mirrors
  obtain ⟨sink, news, journal, silent⟩ := mute
  refine ⟨by rw [sink, ← plain], ?_⟩
  rw [sink, journal]
  exact tells.append silent

theorem Sink.deliver_plain (s : AlertStore) (event : Event) :
    Sink.deliver { store := s } .pass event = ({ store := (s.take event).1 }, (s.take event).2) := by
  cases event <;> rfl

/-! ### Requests -/

theorem Request.mute_start (plain : w.sink = { store := w.sink.store }) (r : Request) (ticket : Ticket) :
    w.Mute (r.start ticket w).1 := by
  cases r with
  | knownSlot id =>
    rw [start]
    split
    · exact .of_same rfl rfl
    · exact .refl w
  | deliver event =>
    have sink : (w.sink.startDelivery event).1 = w.sink := by
      rw [plain]
      cases event <;> rfl
    exact ⟨sink, [.sent event], rfl, by simp [Happening.isAnswer]⟩
  | findOpen rules =>
    have same : (startLookups w rules).1 = w := congrArg Prod.fst (startLookups_at_once plain rules)
    change w.Mute (startLookups w rules).1
    rw [same]
    exact .refl w
  | findAll =>
    have sink : w.sink.startFindAll.1 = w.sink := by
      rw [plain]
      rfl
    exact .of_same sink rfl
  | _ => exact .of_same rfl rfl

/-- What is not sent to the sink does not change it. -/
theorem Request.mute_poll {r : Request} (other : ∀ event, r ≠ .deliver event) (wait : r.Wait) (w : World) :
    w.Mute (r.poll wait w).1 := by
  obtain ⟨_, _, _, same⟩ := shifts_poll other wait w
  exact same ▸ .of_same rfl rfl

/-- An event that is sent is answered at once, by the store. -/
theorem Request.mirrors_deliver (mirrors : w.Mirrors s₀) (event : Event) (ticket : Ticket) :
    let started := (Request.deliver event).start ticket w
    ∃ w' answer, (Request.deliver event).poll started.2 started.1 = (w', .answered answer) ∧ w'.Mirrors s₀ := by
  obtain ⟨plain, tells⟩ := mirrors
  generalize stored : w.sink.store = s at plain tells
  have started : w.sink.startDelivery event = (w.sink, {}) := by
    rw [plain]
    cases event <;> rfl
  let flight : Flight (Except SinkError Unit) := { act := {}, start := w.clock }
  let w₁ := w.note (.sent event)
  let answered := (w₁.sink.deliver .pass event)
  let w' := ({ w₁ with sink := answered.1 }.note (.answered event answered.2)).moved
  have acts : flight.actsAt ≤ w₁.clock := Nat.le_refl w.clock.nanos
  have flown : flight.poll w₁ (fun sink deed => sink.deliver deed event) =
      ({ w₁ with sink := answered.1 }, flight.answered answered.2) := if_pos acts
  have result : (flight.answered answered.2).result? w₁.clock = some answered.2 := if_pos acts
  have begun : (Request.deliver event).start ticket w = (w₁, flight, w.engine.sinkTimeout) := by
    simp only [start, started]
    rfl
  have made : answered = ({ store := (s.take event).1 }, (s.take event).2) := by
    rw [← Sink.deliver_plain, ← plain]
    rfl
  intro begins
  refine ⟨w', answered.2, ?_, ?_, ?_⟩
  · rw [show begins = _ from begun]
    simp only [poll, flown]
    rw [show World.clock { w₁ with sink := answered.1 } = w₁.clock from rfl, result]
    rfl
  · change answered.1 = { store := answered.1.store }
    rw [made]
  · change s₀.Tells (.answered event answered.2 :: .sent event :: w.journal) answered.1.store
    rw [made]
    exact .answered event (.other rfl tells)

end Mirrors

/-! ### Threads -/

/-- Wherever it is, a thread leaves the sink alone between its requests, and waits for none of them that is sent
to the sink. -/
def Thread.Minds (tasks : T → Prop) (children : C → Prop) : Thread T C α → Prop
  | .ready p => ∀ w, p.Minds (fun _ => True) tasks w
  | .finished _ => True
  | .waiting r _ _ next => (∀ event, r ≠ .deliver event) ∧ ∀ a w, (next a).Minds (fun _ => True) tasks w
  | .joining cs _ next => (∀ c ∈ cs, children c) ∧ ∀ results w, (next results).Minds (fun _ => True) tasks w

section Threads

variable {T C α : Type} {s₀ : AlertStore} {w : World} {t : Tasks T C} {tasks : T → Prop} {children : C → Prop}

def Tasks.Mirror (t : Tasks T C) (s₀ : AlertStore) (children : C → Prop) : Prop :=
  ∀ {w c}, World.Mirrors s₀ w → children c → (t.poll c w).1.Mirrors s₀ ∧ children (t.poll c w).2

theorem Tasks.Mirror.polls (polled : t.Mirror s₀ children) {a b : World × List C} (polls : t.members.Polls a b)
    (mirrors : a.1.Mirrors s₀) (minds : ∀ c ∈ a.2, children c) :
    b.1.Mirrors s₀ ∧ ∀ c ∈ b.2, children c := by
  induction polls with
  | refl => exact ⟨mirrors, minds⟩
  | tail _ step ih =>
    obtain ⟨i, c, member, rfl⟩ := step
    obtain ⟨mirrors', minds'⟩ := ih
    obtain ⟨mirrors'', mind⟩ := polled mirrors' (minds' c (List.mem_of_getElem? member))
    exact ⟨mirrors'', fun c' mem => (List.mem_or_eq_of_mem_set mem).elim (minds' c') (· ▸ mind)⟩

theorem Prog.Minds.advance {p : Prog T α} (minds : p.Minds (fun _ => True) tasks w)
    (polled : t.Mirror s₀ children) (ready : ∀ v, tasks v → children (t.ready v)) (mirrors : w.Mirrors s₀) :
    (p.advance t w).1.Mirrors s₀ ∧ (p.advance t w).2.Minds tasks children := by
  induction p generalizing w with
  | done a => exact ⟨mirrors, trivial⟩
  | get next ih => exact ih w minds mirrors
  | set w' next ih => exact ih minds.2 (mirrors.mute minds.1)
  | ask r next ih =>
    have taken : w.takeTicket.1.Mirrors s₀ := mirrors.mute (.of_same rfl rfl)
    rw [Prog.advance]
    generalize w.takeTicket = ticketed at taken
    obtain ⟨w₁, ticket⟩ := ticketed
    dsimp only at taken ⊢
    by_cases other : ∀ event, r ≠ .deliver event
    · have started := taken.mute (r.mute_start taken.plain ticket)
      generalize r.start ticket w₁ = begun at started
      obtain ⟨w₂, wait⟩ := begun
      have polls := started.mute (Request.mute_poll other wait w₂)
      dsimp only
      generalize r.poll wait w₂ = result at polls
      obtain ⟨w₃, progress⟩ := result
      cases progress with
      | answered a => exact ih a (minds.2 a w₃) polls
      | waiting wait' => exact ⟨polls, other, minds.2⟩
    · obtain ⟨event, rfl⟩ := not_forall_not.mp other
      obtain ⟨w₃, a, answered, mirrors'⟩ := Request.mirrors_deliver taken event ticket
      rw [answered]
      exact ih a (minds.2 a w₃) mirrors'
  | fork ts next ih =>
    rw [Prog.advance]
    have begun : ∀ c ∈ ts.map t.ready, children c := fun c mem => by
      obtain ⟨v, there, rfl⟩ := List.mem_map.mp mem
      exact ready v (minds.1 v there)
    have polls := polled.polls (Members.polls_pollGroup (ts.map t.ready) (.all (ts.map t.ready).length w) w)
      mirrors begun
    dsimp only at polls ⊢
    generalize t.members.pollGroup _ _ w = group at polls
    obtain ⟨w', cs, line⟩ := group
    dsimp only at polls ⊢
    cases t.results? cs with
    | some results => exact ih results (minds.2 results w') polls.1
    | none => exact ⟨polls.1, polls.2, minds.2⟩

theorem Thread.Minds.poll {th : Thread T C α} (minds : th.Minds tasks children) (polled : t.Mirror s₀ children)
    (ready : ∀ v, tasks v → children (t.ready v)) (mirrors : w.Mirrors s₀) :
    (th.poll t w).1.Mirrors s₀ ∧ (th.poll t w).2.Minds tasks children := by
  cases th with
  | ready p => exact (minds w).advance polled ready mirrors
  | finished a => exact ⟨mirrors, trivial⟩
  | waiting r ticket wait next =>
    obtain ⟨other, goes⟩ := minds
    have polls := mirrors.mute (Request.mute_poll other wait w)
    rw [Thread.poll]
    generalize r.poll wait w = result at polls
    obtain ⟨w', progress⟩ := result
    cases progress with
    | answered a => exact (goes a w').advance polled ready polls
    | waiting wait' => exact ⟨polls, other, goes⟩
  | joining cs line next =>
    obtain ⟨each, goes⟩ := minds
    have polls := polled.polls (Members.polls_pollGroup cs line w) mirrors each
    rw [Thread.poll]
    dsimp only at polls ⊢
    generalize t.members.pollGroup cs line w = group at polls
    obtain ⟨w', cs', line'⟩ := group
    dsimp only at polls ⊢
    cases t.results? cs' with
    | some results => exact (goes results w').advance polled ready polls.1
    | none => exact ⟨polls.1, polls.2, goes⟩

end Threads

/-! ### Courses -/

def Strand.Minds : Strand → Prop :=
  Thread.Minds (fun _ => True) fun _ => True

/-- From outside anything changes but the sink. -/
def World.BesideSink (w w' : World) : Prop :=
  w.Elsewhere w' ∧ w'.sink = w.sink

section Courses

variable {s₀ : AlertStore} {w w' : World}

theorem Visit.mirror (s₀ : AlertStore) : Visit.tasks.Mirror s₀ Strand.Minds :=
  fun mirrors minds => Thread.Minds.poll minds (fun _ => nofun) nofun mirrors

theorem Visit.ready_minds (v : Visit) (minds : v.Minds) : Strand.Minds (Visit.tasks.ready v) :=
  minds

theorem World.BesideSink.mute (change : w.BesideSink w') : w.Mute w' :=
  .of_same change.2 change.1.engine.2.2.1

theorem CallThread.Completes.mirrors {c : CallThread α} {a : α}
    (completes : c.Completes World.BesideSink w w' a) (minds : Thread.Minds Visit.Minds Strand.Minds c)
    (mirrors : w.Mirrors s₀) : w'.Mirrors s₀ := by
  induction completes with
  | finished => exact mirrors
  | polled waits change rest ih =>
    obtain ⟨mirrors', minds'⟩ := minds.poll (Visit.mirror s₀) Visit.ready_minds (mirrors.mute change.mute)
    exact ih minds' mirrors'

theorem Passage.Runs.mirrors {p : Passage} (runs : p.Runs World.BesideSink) (routine : p.call.IsRoutine)
    (mirrors : p.before.Mirrors s₀) : p.after.Mirrors s₀ := by
  obtain ⟨mirrors', minds⟩ := (Call.minds routine p.before).advance (Visit.mirror s₀) Visit.ready_minds mirrors
  exact CallThread.Completes.mirrors runs minds mirrors'

/-- While calls are made one at a time, and nobody else touches the sink, the journal tells truly of the store. -/
theorem Course.mirrors {ps : List Passage}
    (course : Course (Passage.Runs World.BesideSink) World.BesideSink w ps w') (routine : ∀ p ∈ ps, p.call.IsRoutine)
    (mirrors : w.Mirrors s₀) : w'.Mirrors s₀ :=
  (course.keeps mirrors (fun mirrors change => mirrors.mute change.mute)
    fun p mem before ran => ran.mirrors (routine p mem) before).2

end Courses

end ThresholdAlerts
