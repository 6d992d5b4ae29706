import ThresholdAlerts.Proofs.Flapping
/-! Backlogs between two holders of a slot. Whoever holds a slot may leave the outbox behind an event that was
delivered or given up; it does not let go of the slot before the front is one that was tried, and the mark of the
rule says whether anything waits. Main statement: in every interleaving of all calls the outbox of a slot that
nobody holds is of this shape. -/
namespace ThresholdAlerts

open Function

def Stage.Drains : Stage → Prop
  | .draining => True
  | .retrying _ => True
  | .accepted => True
  | .refused _ => True
  | _ => False

def Work.Calm (x : Option Work) : Prop :=
  ∀ work ∈ x, ¬ work.stage.Drains

@[simp] theorem Work.calm_none : Work.Calm none :=
  fun _ here => absurd here (by simp)

@[simp] theorem Work.calm_some {work : Work} : Work.Calm (some work) ↔ ¬ work.stage.Drains := by
  simp [Calm]

/-- Only the front of an outbox was tried, and it was unless the outbox is being worked off. -/
structure Account.Banked (a : Account) (x : Option Work) : Prop where
  few : a.outbox.length ≤ Outbox.capacity
  behind : ∀ d ∈ a.outbox.tail, d.failures = 0
  front : Work.Calm x → ∀ d ∈ a.outbox.head?, 0 < d.failures

section Turns

variable {regime : Regime} {rule : RuleId} {m : Moment} {a a' : Account} {x x' : Option Work}

namespace Account.Banked

theorem same (h : a.Banked x) (outbox : a'.outbox = a.outbox) (calm : Work.Calm x' → Work.Calm x) :
    a'.Banked x' := by
  obtain ⟨few, behind, front⟩ := h
  rw [← outbox] at few behind front
  exact ⟨few, behind, fun idle => front (calm idle)⟩

theorem untouched (empty : a.outbox = []) : a.Banked x := by
  refine ⟨?_, ?_, fun _ => ?_⟩ <;> simp [empty]

/-- Whatever cancels the last delivery leaves the front, which was tried. -/
theorem dropLast_ne_nil (h : a.Banked x) (calm : Work.Calm x) {event : Event} {d : Delivery}
    (cancels : a.outbox.cancelledBy? event = some d) : a.outbox.dropLast ≠ [] := by
  obtain ⟨shape, -, -, untried, -⟩ := Outbox.cancels_last cancels
  intro empty
  rw [empty, List.nil_append] at shape
  have tried := h.front calm d (by rw [← shape]; rfl)
  omega

theorem popped (h : a.Banked x) {front : Delivery} {rest : Outbox} (due : a.outbox = front :: rest)
    (outbox : a'.outbox = rest) (drains : ¬ Work.Calm x') : a'.Banked x' := by
  obtain ⟨few, behind, -⟩ := h
  rw [due] at few behind
  rw [List.length_cons] at few
  refine ⟨?_, fun d mem => ?_, fun calm => absurd calm drains⟩
  · rw [outbox]
    exact Nat.le_of_succ_le few
  · rw [outbox] at mem
    exact behind d (List.mem_of_mem_tail mem)

end Account.Banked

theorem Turn.banked (turn : Turn regime rule m a x a' x') (h : a.Banked x) : a'.Banked x' := by
  cases turn with
  | taken => exact h.same rfl fun _ => by simp
  | queued waits kept room same untried =>
    have longer : (a.outbox.length + 1) ≤ Outbox.capacity := room
    refine ⟨by simpa using longer, fun d mem => ?_, fun _ d first => ?_⟩
    · rw [List.tail_append_of_ne_nil waits] at mem
      rcases List.mem_append.mp mem with before | last
      · exact h.behind d before
      · exact List.mem_singleton.mp last ▸ untried
    · rw [List.head?_append_of_ne_nil _ waits] at first
      exact h.front (by simp [Stage.Drains]) d first
  | @cancelled event todo d cancels =>
    have calm : Work.Calm (some { todo, stage := .handed event }) := by simp [Stage.Drains]
    have left := h.dropLast_ne_nil calm cancels
    have shape := (Outbox.cancels_last cancels).1
    obtain ⟨few, behind, front⟩ := h
    generalize a.outbox.dropLast = kept at *
    rw [← shape] at few behind front
    refine ⟨Nat.le_trans (by simp) few, fun d' mem => behind d' ?_, fun _ d' first => front calm d' ?_⟩
    · rw [List.tail_append_of_ne_nil left]
      exact List.mem_append_left _ mem
    · rwa [List.head?_append_of_ne_nil _ left]
  | postponed empty same counted => exact ⟨Nat.le_of_ble_eq_true rfl, by simp, fun _ => by simp [counted]⟩
  | drains => exact h.same rfl fun calm => absurd trivial (calm _ rfl)
  | drained tried => exact ⟨h.few, h.behind, fun _ => tried⟩
  | delivered due => exact h.popped due rfl (by simp [Stage.Drains])
  | delayed due same counted =>
    obtain ⟨few, behind, -⟩ := h
    rw [due] at few behind
    exact ⟨few, behind, fun _ => by simpa using Delivery.failures_counted counted⟩
  | givenUp due => exact h.popped due rfl (by simp [Stage.Drains])
  | left => exact h.same rfl fun _ => by simp [Stage.Drains]
  | forgotten => exact .untouched rfl
  | _ => exact h.same rfl (by simp [Stage.Drains])

theorem Turn.outbox_of_rest (turn : Turn regime rule m a x a' x') (rest : ∀ work ∈ x, work.stage = .rest) :
    a'.outbox = a.outbox := by
  cases turn with
  | forgotten retired spent => exact spent.symm
  | _ => first | rfl | exact absurd (rest _ rfl) (by simp)

theorem Turn.waits_of_handed {event : Event} {todo : List Event}
    (turn : Turn regime rule m a (some { todo, stage := .handed event }) a' (some { todo }))
    (h : a.Banked (some { todo, stage := .handed event })) : a'.outbox ≠ [] := by
  cases turn with
  | queued => exact List.append_ne_nil_of_right_ne_nil _ (List.cons_ne_nil _ _)
  | cancelled cancels => exact h.dropLast_ne_nil (by simp [Stage.Drains]) cancels
  | overflow kept full =>
    intro empty
    rw [show a.outbox = [] from empty] at full
    exact absurd full (by decide)

end Turns

/-! ### Marks -/

section Marks

variable {regime : Regime} {rule rule' : RuleId} {id : SlotId} {w w' : World} {work : Work}
  {x x' : Option Work} {holders : RuleId → Option Work}

/-- A rule is marked if something waits in its outbox, and only then unless the outbox is being worked off. -/
structure World.Tallies (w : World) (rule : RuleId) (x : Option Work) : Prop where
  marked : (w.account rule).outbox ≠ [] → rule ∈ w.engine.tracker.backlogged
  waits : Work.Calm x → rule ∈ w.engine.tracker.backlogged → (w.account rule).outbox ≠ []

/-- What happens under the slot of a rule changes its mark with its outbox, and no other mark. -/
structure World.Remarks (rule : RuleId) (w : World) (x : Option Work) (w' : World) (x' : Option Work) :
    Prop where
  others : ∀ {rule'}, rule' ≠ rule →
    (rule' ∈ w'.engine.tracker.backlogged ↔ rule' ∈ w.engine.tracker.backlogged)
  own : w.Tallies rule x → w'.Tallies rule x'

namespace World.Remarks

theorem same (marks : w'.engine.tracker.backlogged = w.engine.tracker.backlogged)
    (outbox : (w'.account rule).outbox = (w.account rule).outbox) (calm : Work.Calm x' → Work.Calm x) :
    w.Remarks rule x w' x' where
  others _ := by rw [marks]
  own h := by
    constructor
    · rw [marks, outbox]
      exact h.marked
    · rw [marks, outbox]
      exact fun idle => h.waits (calm idle)

theorem shrinks (marks : w'.engine.tracker.backlogged = w.engine.tracker.backlogged)
    (fewer : (w'.account rule).outbox ≠ [] → (w.account rule).outbox ≠ []) (drains : ¬ Work.Calm x') :
    w.Remarks rule x w' x' where
  others _ := by rw [marks]
  own h := ⟨fun waits => marks ▸ h.marked (fewer waits), fun calm => absurd calm drains⟩

theorem inserts (marks : w'.engine.tracker.backlogged = w.engine.tracker.backlogged.insert rule)
    (waits : (w'.account rule).outbox ≠ []) : w.Remarks rule x w' x' where
  others ne := by
    rw [marks, Std.TreeSet.mem_insert, Std.compare_eq_iff_eq]
    exact or_iff_right (Ne.symm ne)
  own _ := ⟨fun _ => by rw [marks]; exact Std.TreeSet.mem_insert_self, fun _ _ => waits⟩

theorem erases (marks : w'.engine.tracker.backlogged = w.engine.tracker.backlogged.erase rule)
    (spent : (w'.account rule).outbox = []) : w.Remarks rule x w' x' where
  others ne := by
    rw [marks, Std.TreeSet.mem_erase, Ne, Std.compare_eq_iff_eq]
    exact and_iff_right (Ne.symm ne)
  own _ := by
    refine ⟨fun waits => absurd spent waits, fun _ marked => ?_⟩
    rw [marks, Std.TreeSet.mem_erase] at marked
    exact absurd Std.compare_self marked.1

end World.Remarks

theorem World.backlogged_change (w : World) (id : SlotId) (c : FiringState.Change) :
    (w.change id c).1.engine.tracker.backlogged = w.engine.tracker.backlogged := by
  simp only [change, Tracker.change]
  split <;> rfl

theorem World.backlogged_abandon (w : World) (event : Event) (attempts : Nat) (error : SinkError) :
    (w.abandon event attempts error).engine.tracker.backlogged = w.engine.tracker.backlogged := by
  simp only [abandon, readCalendar, count, note, onEngine]

theorem World.backlogged_queueBehind (w : World) (id : SlotId) (event : Event) :
    (w.queueBehind id event).engine.tracker.backlogged = w.engine.tracker.backlogged.insert event.ruleId := by
  simp only [queueBehind]
  generalize (w.slot id).outbox.enqueue event w.clock = put
  obtain ⟨outbox, result⟩ := put
  cases result with
  | overflow event' =>
    exact congrArg (·.insert event.ruleId) (World.backlogged_abandon (w.onTracker (·.setOutbox id outbox)) ..)
  | _ => rfl

theorem World.backlogged_failedAgain (w : World) (id : SlotId) (front : Delivery) (rest : Outbox)
    (error : SinkError) :
    (w.failedAgain id front rest error).1.engine.tracker.backlogged = w.engine.tracker.backlogged := by
  simp only [failedAgain]
  split
  · rfl
  · exact backlogged_abandon ..

theorem Edit.remarks (edit : Edit regime rule id w work w' x') (attended : w.Attended holders rule id)
    (held : holders rule = some work) (banked : (w.account rule).Banked (some work)) :
    w.Remarks rule (some work) w' x' := by
  have happens : Happens regime rule id w (holders rule) w' x' := held ▸ .edit edit
  have advances := attended.advances happens
  rw [held] at advances
  have before : (w.account rule).outbox = (w.slot id).outbox := by rw [World.account_of_find attended.found]
  have after (stays : x' ≠ none) : (w'.account rule).outbox = (w'.slot id).outbox := by
    rw [World.account_of_find (advances.held stays).1]
  have resting (rest : work.stage = .rest) := advances.turn.outbox_of_rest (by simpa using rest)
  have named {event : Event} (mem : event ∈ work.stage.events) : event.ruleId = rule :=
    (attended.tagged rule).work work held event (List.mem_append_right _ mem)
  cases edit with
  | change c => exact .same (w.backlogged_change id c) (resting rfl) (by simp [Stage.Drains])
  | transition breached value time =>
    obtain ⟨ids, same⟩ := w.transition_fst id _ breached value time
    refine .same ?_ (resting rfl) (by simp [Stage.Drains])
    rw [same]
    exact w.backlogged_change id _
  | seed alertId =>
    refine .same ?_ (resting rfl) (by simp [Stage.Drains])
    simp only [World.onTracker, World.onEngine, Tracker.seed]
    split <;> rfl
  | queueBehind =>
    refine .inserts ?_ (advances.turn.waits_of_handed banked)
    rw [World.backlogged_queueBehind, named List.mem_cons_self]
  | @firstFailure event error todo empty =>
    cases again : (w.count .sinkFailure).triesAgain error 1 with
    | true =>
      have same := World.firstFailure_of_again id event again
      refine .inserts ?_ ?_
      · rw [same, ← named List.mem_cons_self]
        rfl
      · rw [after (by simp), same]
        exact ne_of_eq_of_ne (congrArg Slot.outbox (World.slot_setOutbox _ id _)) (by simp)
    | false =>
      have same := World.firstFailure_of_last id event again
      refine .same ?_ ?_ (by simp [Stage.Drains])
      · rw [same]
        exact World.backlogged_abandon ..
      · rw [after (by simp), before, same, World.slot_abandon]
        rfl
  | @delivered front rest due =>
    refine .shrinks ?_ (fun _ => ?_) (by simp [Stage.Drains])
    · rw [World.delivered]
      split <;> rfl
    · rw [before, due]
      exact List.cons_ne_nil front rest
  | @failedAgain front rest error due =>
    refine .shrinks (w.backlogged_failedAgain id front rest error) (fun _ => ?_) (by simp [Stage.Drains])
    rw [before, due]
    exact List.cons_ne_nil front rest
  | drains => exact .shrinks rfl (fun waits => waits) (by simp [Stage.Drains])
  | drained waits => exact ⟨fun _ => .rfl, fun h => ⟨h.marked, fun _ _ => before ▸ waits⟩⟩
  | unmark empty => exact .erases rfl (by rw [after (by simp)]; exact empty)
  | leave => exact .same (Tracker.backlogged_leave _ id) (resting rfl) (by simp [Stage.Drains])
  | release =>
    by_cases spent : (w.slot id).retired = true ∧ (w.slot id).outbox = []
    · refine .erases ?_ ((resting rfl).trans (before.trans spent.2))
      rw [World.tracker_release_of_spent spent.1 spent.2, Tracker.backlogged_leave, Tracker.detach,
        attended.coherent.ruleId attended.found]
      rfl
    · refine .same ?_ (resting rfl) (by simp [Stage.Drains])
      rw [World.release_of_kept (Tracker.kept_of_unspent spent)]
      exact Tracker.backlogged_leave _ id
  | _ => exact .same rfl (resting rfl) (by simp [Stage.Drains])

theorem Happens.remarks (happens : Happens regime rule id w (holders rule) w' x')
    (attended : w.Attended holders rule id) (banked : (w.account rule).Banked (holders rule)) :
    w.Remarks rule (holders rule) w' x' := by
  have advances := attended.advances happens
  generalize held : holders rule = x at *
  cases happens with
  | edit edit => exact edit.remarks attended held banked
  | taken =>
    refine .same ?_ (advances.turn.outbox_of_rest (by simp)) fun _ => by simp
    simp only [World.onTracker, World.onEngine, Tracker.take]
    split <;> rfl
  | _ => exact .same rfl rfl (by simp [Stage.Drains])

/-! ### Every interleaving -/

/-- The outbox of every rule is of the shape that the stage of its holder asks for, its mark tells whether
anything waits, and nothing waits that was tried as often as the policy allows. -/
structure World.Backlogged (p : RetryPolicy) (w : World) (holders : RuleId → Option Work) : Prop where
  policy : w.engine.policy = p
  banked : ∀ rule, (w.account rule).Banked (holders rule)
  tallies : ∀ rule, w.Tallies rule (holders rule)
  again : ∀ rule, ∀ d ∈ (w.account rule).outbox, d.failures = 0 ∨ p.exhausted d.failures = false

theorem Turn.again {m : Moment} {a a' : Account} (turn : Turn regime rule m a x a' x')
    (again : ∀ d ∈ a.outbox, d.failures = 0 ∨ m.policy.exhausted d.failures = false) :
    ∀ d ∈ a'.outbox, d.failures = 0 ∨ m.policy.exhausted d.failures = false := by
  have rest {front : Delivery} {rest : Outbox} (due : a.outbox = front :: rest) {d : Delivery}
      (mem : d ∈ rest) : d ∈ a.outbox := due ▸ List.mem_cons_of_mem front mem
  intro d mem
  cases turn with
  | queued waits kept room same untried =>
    rcases List.mem_append.mp mem with before | last
    · exact again d before
    · exact .inl (List.mem_singleton.mp last ▸ untried)
  | cancelled => exact again d (List.dropLast_subset _ mem)
  | postponed empty same counted later => exact .inr (List.mem_singleton.mp mem ▸ later.again)
  | delivered due => exact again d (rest due mem)
  | delayed due same counted later =>
    rcases List.mem_cons.mp mem with here | behind
    · exact .inr (here ▸ later.again)
    · exact again d (rest due behind)
  | givenUp due => exact again d (rest due mem)
  | forgotten => exact absurd mem (by simp)
  | _ => exact again d mem

theorem kept_backlogged (regime : Regime) (p : RetryPolicy) : Kept regime (World.Backlogged p) where
  still := fun {w w' holders} still h => by
    obtain ⟨policy, banked, tallies, again⟩ := h
    refine ⟨still.aside.policy.trans policy, fun rule => ?_, fun rule => ⟨fun waits => ?_, fun calm marked => ?_⟩,
      fun rule => ?_⟩
    · rw [still.account]
      exact banked rule
    · rw [still.account] at waits
      cases found : w.engine.tracker.find? rule with
      | some id => exact still.marks.keeps found ((tallies rule).marked waits)
      | none =>
        have absent : rule ∉ w.engine.tracker.ruleIds := fun tracked => Tracker.mem_ruleIds.mp tracked found
        exact absurd (World.account_of_untracked absent).1 waits
    · rw [still.account]
      exact (tallies rule).waits calm (still.marks.fewer marked)
    · rw [still.account]
      exact again rule
  happens := fun {w w' holders rule id x} attended happens h => by
    obtain ⟨policy, banked, tallies, again⟩ := h
    have advances := attended.advances happens
    have remarks := happens.remarks attended (banked rule)
    have shape := (kept_accounts (P := fun _ a x => a.Banked x) fun turn _ _ h => turn.banked h).happens
      attended happens banked
    refine ⟨happens.paces.policy.trans policy, shape, fun rule' => ?_, fun rule' => ?_⟩
    · by_cases same : rule' = rule
      · subst same
        rw [update_self]
        exact remarks.own (tallies rule')
      · obtain ⟨marked, waits⟩ := tallies rule'
        rw [update_of_ne same]
        constructor
        · rw [advances.others same, remarks.others same]
          exact marked
        · rw [advances.others same, remarks.others same]
          exact waits
    · subst policy
      exact advances.each_account
        (P := fun _ a => ∀ d ∈ a.outbox, d.failures = 0 ∨ w.engine.policy.exhausted d.failures = false)
        (advances.turn.again (again rule)) again rule'

theorem bears_backlogged (p : RetryPolicy) : Bears World.Elsewhere (World.Backlogged p) where
  elsewhere change := change
  kept := fun {w w' holders} change h => by
    obtain ⟨policy, banked, tallies, again⟩ := h
    have engine := change.engine.1
    refine ⟨by rw [engine, policy], fun rule => ?_, fun rule => ⟨?_, ?_⟩, fun rule => ?_⟩
    · rw [change.account]
      exact banked rule
    · rw [change.account, engine]
      exact (tallies rule).marked
    · rw [change.account, engine]
      exact (tallies rule).waits
    · rw [change.account]
      exact again rule

theorem World.Begins.backlogged (h : w.Begins) : w.Backlogged w.engine.policy fun _ => none := by
  refine ⟨rfl, fun rule => .untouched ?_, fun rule => ⟨fun waits => absurd ?_ waits, fun _ marked => ?_⟩,
    fun rule d mem => ?_⟩
  · rw [h.account]
  · rw [h.account]
  · obtain ⟨c, engine⟩ := h.engine
    rw [engine] at marked
    exact absurd marked (by simp [Engine.ofConfig])
  · rw [h.account] at mem
    exact absurd mem (by simp)

end Marks

/-! ### Slots that nobody holds -/

def Request.Queues (id : SlotId) (ticket : Ticket) : (r : Request) → r.Wait → Prop
  | .slot _, some c => c.slot = id ∧ c.ticket = ticket
  | .existingSlot _, some c => c.slot = id ∧ c.ticket = ticket
  | .knownSlot known, own => known = id ∧ own = ticket
  | _, _ => False

def Thread.Queues (id : SlotId) (ticket : Ticket) : Thread T C α → Prop
  | .waiting r _ wait _ => r.Queues id ticket wait
  | _ => False

def Scene.Queues (s : Scene) (id : SlotId) (ticket : Ticket) : Prop :=
  ∃ c ∈ s.calls, c.Queues id ticket ∨ ∃ k v, c.visit? k = some v ∧ v.Queues id ticket

/-- Somebody is at the head of the queue of the slot and does not wait for it any more. -/
def Scene.Held (s : Scene) (id : SlotId) : Prop :=
  ∃ ticket, (s.world.slot id).queue.head? = some ticket ∧ ¬ s.Queues id ticket

section Held

variable {T C α : Type} {regime : Regime} {tasks : T → Prop} {I : World → (RuleId → Option Work) → Prop}
  {s : Scene} {st : Place → Stance} {holders : RuleId → Option Work} {w : World} {rule : RuleId} {id : SlotId}
  {ticket : Ticket} {σ : Stance}

/-- Who waits for a slot queues for it. -/
theorem Thread.Sound.queued {th : Thread T C α} (h : th.Sound regime tasks σ w) (queues : th.Queues id ticket)
    (head : (w.slot id).queue.head? = some ticket) : ∃ c, σ = .queued c ∧ c.ticket = ticket := by
  cases th with
  | waiting r _ wait next =>
    cases r with
    | slot rule =>
      cases wait with
      | none => exact h.elim
      | some c => exact ⟨c, h.1, queues.2⟩
    | existingSlot rule =>
      cases wait with
      | none => exact h.elim
      | some c => exact ⟨c, h.1, queues.2⟩
    | knownSlot known =>
      obtain ⟨rfl, rfl⟩ := queues
      obtain ⟨⟨rule, queued⟩ | ⟨-, -, gone⟩, -⟩ := h
      · exact ⟨_, queued, rfl⟩
      · exact absurd (gone.symm.trans (Tracker.get_of_head head)) (by simp)
    | _ => exact queues.elim
  | _ => exact queues.elim

theorem Scene.Sound.nobody_holds (h : s.Sound regime I st holders)
    (found : s.world.engine.tracker.find? rule = some id) (free : ¬ s.Held id) : holders rule = none := by
  cases held : holders rule with
  | none => rfl
  | some work =>
    obtain ⟨p, id', ticket, here⟩ := h.orderly.held.mp held
    have stands := h.orderly.stands p
    rw [here] at stands
    obtain ⟨found', head⟩ := stands
    obtain rfl := Option.some.inj (found.symm.trans found')
    -- The ticket at the head is the holder's, so that nobody else waits with it.
    have alone {q : Place} {c : Claim} (there : st q = .queued c) (own : c.ticket = ticket) : False := by
      have same : q = p := h.orderly.apart (by rw [there, Stance.ticket?, own]) (by rw [here]; rfl)
      rw [same, here] at there
      exact absurd there (by simp)
    refine absurd ⟨ticket, head, ?_⟩ free
    rintro ⟨c, mem, queues | ⟨k, v, visit, queues⟩⟩
    · obtain ⟨i, call⟩ := List.getElem?_of_mem mem
      obtain ⟨claim, there, own⟩ := (h.calls call).own.queued queues head
      exact alone there own
    · obtain ⟨i, call⟩ := List.getElem?_of_mem mem
      obtain ⟨claim, there, own⟩ := ((h.calls call).visits visit).queued queues head
      exact alone there own

/-- However the calls are interleaved and whatever the sink answers, a slot that nobody holds has an outbox with
events of its rule alone, 256 at most; the front was tried but not as often as the policy allows, all behind it
are untried and due; and the rule is marked as backlogged exactly if anything waits. -/
theorem Scene.backlog_of_free_slot {w : World} {s : Scene} (begins : w.Begins)
    (run : Scene.Run (Call.Admitted .mixed) World.Elsewhere { world := w } s)
    (found : s.world.engine.tracker.find? rule = some id) (free : ¬ s.Held id) :
    let outbox := (s.world.slot id).outbox
    (∀ d ∈ outbox, d.event.ruleId = rule) ∧ outbox.length ≤ 256 ∧
      (∀ front ∈ outbox.head?, 1 ≤ front.failures ∧ front.failures ≤ w.engine.policy.maxAttempts - 1) ∧
      (∀ d ∈ outbox.tail, d.failures = 0 ∧ d.isDue s.world.clock = true) ∧
      (rule ∈ s.world.engine.tracker.backlogged ↔ outbox ≠ []) := by
  intro outbox
  have start : Scene.Sound .mixed (World.Backlogged w.engine.policy) { world := w } (fun _ => .free) fun _ => none :=
    Scene.sound_begins begins begins.backlogged
  obtain ⟨st, holders, sound⟩ := start.run (kept_backlogged .mixed _) (bears_backlogged _) run (by simp)
  have nobody := sound.nobody_holds found free
  have here : (s.world.account rule).outbox = outbox := by rw [World.account_of_find found]
  obtain ⟨-, banked, tallies, again⟩ := sound.property
  obtain ⟨few, behind, front⟩ := banked rule
  obtain ⟨marked, waits⟩ := tallies rule
  have tagged := (sound.orderly.tagged rule).outbox
  have ripe := sound.orderly.ripe rule
  have again := again rule
  rw [nobody] at front waits
  rw [here] at few behind front marked waits tagged ripe again
  refine ⟨tagged, few, fun d first => ⟨front (by simp) d first, ?_⟩, fun d mem => ⟨behind d mem, ?_⟩,
    waits (by simp), marked⟩
  · have tried := front (by simp) d first
    have few := (again d (List.mem_of_mem_head? first)).resolve_left (Nat.ne_of_gt tried)
    rw [RetryPolicy.exhausted, decide_eq_false_iff_not] at few
    omega
  · exact ripe d (List.mem_of_mem_tail mem) (behind d mem)

/-- The load goes up and down while the sink is away, and a minute later what waits is tried again: three events
wait behind each other, and only the front was tried. -/
theorem Scene.backlog_while_flapping :
    let w : World := .watched { workers := 1 } .away
    let s := (Scene.flapping (Scene.make { world := w } .refresh) [95, 50, 95, 50, 95]).retryLater
    let outbox := (s.world.slot 0).outbox
    s.world.engine.tracker.find? "high-load" = some 0 ∧ ¬ s.Held 0 ∧ outbox.map (·.failures) = [2, 0, 0] ∧
      (∀ front ∈ outbox.head?, front.failures ≤ 7) ∧ (∀ d ∈ outbox.tail, d.isDue s.world.clock = true) ∧
      "high-load" ∈ s.world.engine.tracker.backlogged := by
  intro w s outbox
  have served : Scene.Run (Call.Admitted .serving) World.Elsewhere { world := w } s :=
    ((Scene.run_make _ nofun).trans (Scene.run_flapping _ _)).trans
      ((Scene.run_retryLater _).mono fun outage => outage.apart.1)
  have found : s.world.engine.tracker.find? "high-load" = some 0 := by decide +kernel
  have free : ¬ s.Held 0 := by
    rintro ⟨ticket, head, -⟩
    have idle : (s.world.slot 0).queue = [] := by decide +kernel
    rw [idle] at head
    exact absurd head (by simp)
  have tried : outbox.map (·.failures) = [2, 0, 0] := by decide +kernel
  obtain ⟨-, -, front, behind, marked⟩ := Scene.backlog_of_free_slot (World.begins_watched _ _)
    (served.admits Call.Admitted.mixed) found free
  refine ⟨found, free, tried, fun d first => (front d first).2, fun d mem => (behind d mem).2, marked.mpr ?_⟩
  intro empty
  rw [show outbox = [] from empty] at tried
  exact absurd tried (by simp)

end Held

end ThresholdAlerts
