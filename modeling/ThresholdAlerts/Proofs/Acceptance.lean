import ThresholdAlerts.Proofs.Mirrors
import ThresholdAlerts.Proofs.Outages
/-! A store that is always available and never full. Main statement: while calls are made one at a time it accepts
every event, so that nothing waits between two calls and the alerts open in it are those that are tracked. -/
namespace ThresholdAlerts

open Function Relation

/-! ### Answers in the order of events -/

def Happening.answered? : Happening → Option Event
  | .answered event _ => some event
  | _ => none

def Happening.answeredIn (past : List Happening) : List Event :=
  (past.filterMap answered?).reverse

def Happening.producedIn (past : List Happening) : List Event :=
  (past.filterMap produced?).reverse

def Stage.Straight : Stage → Prop
  | .rest => True
  | .handed _ => True
  | .sending .. => True
  | .draining => True
  | _ => False

/-- Events are answered in the order in which they were produced, and nothing waits, up to the first one that is
refused. -/
inductive Account.Smooth (a : Account) (x : Option Work) : Prop
  | accepted (all : Happening.AllAccepted a.past) (empty : a.outbox = []) (kept : a.abandoned = [])
      (order : a.produced = Happening.answeredIn a.past ++ Outbox.pending [] x)
      (straight : ∀ work ∈ x, work.stage.Straight)
  | refused {later past : List Happening} {event : Event} {error : SinkError} {rest : List Event}
      (whole : a.past = later ++ .answered event (.error error) :: past) (all : Happening.AllAccepted past)
      (order : Happening.producedIn past = Happening.answeredIn past ++ event :: rest)

section Turns

variable {regime : Regime} {rule : RuleId} {m : Moment} {a a' : Account} {x x' : Option Work}

theorem Turn.past (turn : Turn regime rule m a x a' x') : ∃ news, a'.past = news ++ a.past := by
  cases turn with
  | changed => exact ⟨_, rfl⟩
  | _ => first | exact ⟨[], rfl⟩ | exact ⟨[_], rfl⟩

theorem Account.Smooth.noted {what : Happening} (all : Happening.AllAccepted a.past) (empty : a.outbox = [])
    (kept : a.abandoned = []) (order : a.produced = Happening.answeredIn a.past ++ Outbox.pending [] x)
    (silent : what.answered? = none) (unproduced : what.produced? = none) (held : what.abandoned? = none)
    (pending : Outbox.pending [] x' = Outbox.pending [] x) (straight : ∀ work ∈ x', work.stage.Straight) :
    { a with past := what :: a.past }.Smooth x' := by
  refine .accepted (fun e error mem => ?_) empty ?_ ?_ straight
  · rcases List.mem_cons.mp mem with rfl | mem
    · exact absurd silent nofun
    · exact all e error mem
  · rw [Account.abandoned, List.filterMap_cons_none held]
    exact kept
  · rw [Account.produced_cons a unproduced, Happening.answeredIn, List.filterMap_cons_none silent, pending]
    exact order

theorem Turn.smooth (turn : Turn .serving rule m a x a' x') (smooth : a.Smooth x) : a'.Smooth x' := by
  cases smooth with
  | @refused later past event error rest whole all order =>
    obtain ⟨news, grown⟩ := turn.past
    exact .refused (by rw [grown, whole, List.append_assoc]) all order
  | accepted all empty kept order straight =>
    -- Nothing waits and nothing was refused, which leaves the turns in which an event is produced, handed over,
    -- sent and answered.
    cases turn with
    | taken => exact .accepted all empty kept order (by simp [Stage.Straight])
    | @changed todo c =>
      have produced := a.produced_changed (a.state.apply c).1 (a.state.apply c).2
      refine .accepted ?_ empty ?_ ?_ (by simp [Stage.Straight])
      · intro e error mem
        refine all e error ((List.mem_append.mp mem).resolve_left fun new => ?_)
        obtain ⟨event, -, same⟩ := List.mem_map.mp new
        exact absurd same (by simp)
      · cases event : (a.state.apply c).2 <;> exact kept
      · refine produced.trans ?_
        rw [order]
        have unanswered : Happening.answeredIn ((a.state.apply c).2.toList.map .produced ++ a.past) =
            Happening.answeredIn a.past := by
          cases (a.state.apply c).2 <;> rfl
        rw [unanswered, List.append_assoc]
        rfl
    | idle => exact .accepted all empty kept order straight
    | retire => exact .accepted all empty kept order straight
    | seeded alertId recovers => exact absurd rfl recovers
    | handStray recovers => exact absurd rfl recovers
    | hand => exact .noted all empty kept order rfl rfl rfl rfl (by simp [Stage.Straight])
    | queued waits => exact absurd empty waits
    | cancelled cancels =>
      have last := (Outbox.cancels_last cancels).1
      rw [empty] at last
      exact absurd last (by simp)
    | overflow kept full =>
      rw [empty] at full
      exact absurd full (by decide)
    | sent => exact .noted all empty kept order rfl rfl rfl rfl (by simp [Stage.Straight])
    | acted => exact .accepted all empty kept order (by simp [Stage.Straight])
    | @accepted event todo flight done =>
      refine .accepted (fun e error mem => ?_) empty kept ?_ (by simp [Stage.Straight])
      · exact all e error ((List.mem_cons.mp mem).resolve_left (by simp))
      · refine (a.produced_cons rfl).trans (order.trans ?_)
        simp [Happening.answeredIn, Happening.answered?, Outbox.pending, Stage.events]
    | @refused event todo flight error =>
      have order : Happening.producedIn a.past = Happening.answeredIn a.past ++ event :: todo := order
      exact @Account.Smooth.refused _ _ [] _ _ _ _ rfl all order
    | drains => exact .accepted all empty kept order (by simp [Stage.Straight])
    | drained => exact .accepted all empty kept order (by simp [Stage.Straight])
    | resent due => exact absurd (empty.symm.trans due) (by simp)
    | left => exact .accepted all empty kept order (by simp)
    | forgotten => exact .accepted all rfl kept order (by simp)
    | _ => exact (straight _ rfl).elim

theorem kept_smooth : Kept .serving fun w holders => ∀ rule, (w.account rule).Smooth (holders rule) :=
  kept_accounts (P := fun _ a x => a.Smooth x) fun turn _ _ smooth => turn.smooth smooth

end Turns

theorem World.Begins.smooth {w : World} (h : w.Begins) (rule : RuleId) : (w.account rule).Smooth none := by
  rw [h.account]
  exact .accepted (fun _ _ => by simp) rfl rfl rfl (by simp)

/-! ### What the store answers -/

namespace AlertStore

variable {s₀ s : AlertStore} {past : List Happening} {event : Event} {id : AlertId}

theorem changes_take (s : AlertStore) (event : Event) :
    s.Changes event ((s.take event).2 = .ok ()) (s.take event).1 := by
  have changes := Sink.changes_deliver { store := s } .pass event
  rw [Sink.deliver_plain] at changes
  exact changes

theorem take_opened (available : s.unavailable = false) (alert : Alert) :
    (s.take (.opened alert)).2 = .ok () ∨
      capacity ≤ s.makeRoom.size ∧ ∃ text, (s.take (.opened alert)).2 = .error (.rejected text) := by
  have answer : (s.take (.opened alert)).2 = (s.create alert).2.map fun _ => () := rfl
  rw [answer]
  obtain ⟨-, made⟩ | ⟨-, full, made⟩ | ⟨-, -, made⟩ := create_cases available alert
  · exact .inl (by rw [made]; rfl)
  · exact .inr ⟨full, _, by rw [made]; rfl⟩
  · exact .inl (by rw [made]; rfl)

theorem take_resolved (available : s.unavailable = false) (rule : RuleId) (time : Timestamp)
    (reason : ResolveReason) :
    (s.Holds id → (s.take (.resolved id rule time reason)).2 = .ok ()) ∧
      ((s.take (.resolved id rule time reason)).2 ≠ .ok () → (s.take (.resolved id rule time reason)).1 = s) := by
  have same : s.take (.resolved id rule time reason) = s.resolve id time := rfl
  rw [same]
  cases found : s.get? id with
  | some alert =>
    rw [resolve_of_stored available found]
    exact ⟨fun _ => rfl, fun refused => absurd rfl refused⟩
  | none =>
    rw [resolve_of_absent available found]
    refine ⟨fun holds => ?_, fun _ => rfl⟩
    obtain ⟨alert, there⟩ := holds
    exact absurd (found.symm.trans there) (by simp)

theorem available_makeRoom (s : AlertStore) : s.makeRoom.unavailable = s.unavailable := by
  rw [makeRoom]
  split <;> rfl

theorem available_take (s : AlertStore) (event : Event) : (s.take event).1.unavailable = s.unavailable := by
  cases event with
  | opened alert =>
    change (s.create alert).1.unavailable = s.unavailable
    cases available : s.unavailable with
    | true => rw [create_of_unavailable available, available]
    | false =>
      obtain ⟨-, made⟩ | ⟨-, -, made⟩ | ⟨-, -, made⟩ := create_cases available alert <;> rw [made]
      · exact s.available_makeRoom.trans available
      · exact s.available_makeRoom.trans available
      · exact s.available_makeRoom.trans available
  | resolved id rule time reason =>
    change (s.resolve id time).1.unavailable = s.unavailable
    obtain ⟨before, -, closed⟩ | ⟨e, refused⟩ := s.resolve_cases id time
    · rw [closed]
    · rw [refused]

theorem Tells.available (tells : s₀.Tells past s) (available : s₀.unavailable = false) :
    s.unavailable = false := by
  induction tells with
  | nothing => exact available
  | answered event tells ih => rw [available_take, ih]
  | other silent tells ih => exact ih

/-- What was answered first was answered by the store as it was then. -/
theorem Tells.earlier {later : List Happening} {answer : Except SinkError Unit}
    (tells : s₀.Tells (later ++ .answered event answer :: past) s) :
    ∃ s', s₀.Tells past s' ∧ answer = (s'.take event).2 := by
  induction later generalizing s with
  | nil =>
    cases tells with
    | answered event tells => exact ⟨_, tells, rfl⟩
    | other silent => exact absurd silent (by simp [Happening.isAnswer])
  | cons what later ih =>
    cases tells with
    | answered event tells => exact ih tells
    | other silent tells => exact ih tells

/-- An alert that was created and not closed is open in the store. -/
theorem Tells.holdsOpen (tells : s₀.Tells past s) (empty : s₀.alerts = ∅) (available : s₀.unavailable = false)
    (live : ∀ alert answer, .answered (.opened alert) answer ∈ past → alert.id = id → alert.isOpen = true)
    (unclosed : ∀ event, .answered event (.ok ()) ∈ past → event.closing? ≠ some id) :
    (s.Holds id → s.HoldsOpen id) ∧
      ∀ alert, .answered (.opened alert) (.ok ()) ∈ past → alert.id = id → s.HoldsOpen id := by
  induction tells with
  | nothing =>
    refine ⟨fun holds => ?_, fun alert mem => absurd mem (by simp)⟩
    obtain ⟨alert, there⟩ := holds
    rw [AlertStore.get?, empty] at there
    exact absurd there (by simp)
  | @other past s what silent tells ih =>
    obtain ⟨kept, created⟩ := ih (fun alert answer mem => live alert answer (List.mem_cons_of_mem _ mem))
      fun event mem => unclosed event (List.mem_cons_of_mem _ mem)
    refine ⟨kept, fun alert mem => ?_⟩
    rcases List.mem_cons.mp mem with rfl | mem
    · exact absurd silent (by simp [Happening.isAnswer])
    · exact created alert mem
  | @answered past s event tells ih =>
    obtain ⟨kept, created⟩ := ih (fun alert answer mem => live alert answer (List.mem_cons_of_mem _ mem))
      fun event mem => unclosed event (List.mem_cons_of_mem _ mem)
    have changes := s.changes_take event
    have opens : ∀ alert, event = .opened alert → alert.id = id → alert.isOpen = true := by
      rintro alert rfl named
      exact live alert _ List.mem_cons_self named
    by_cases closes : event.closing? = some id
    · obtain ⟨rule, time, reason, rfl⟩ := Event.eq_resolved closes
      have refused : (s.take (.resolved id rule time reason)).2 ≠ .ok () := fun ok =>
        unclosed _ (ok ▸ List.mem_cons_self) closes
      rw [(take_resolved (tells.available available) rule time reason).2 refused]
      refine ⟨kept, fun alert mem => ?_⟩
      rcases List.mem_cons.mp mem with same | mem
      · exact absurd same (by simp)
      · exact created alert mem
    · have kept' : (s.take event).1.Holds id → (s.take event).1.HoldsOpen id := by
        rintro ⟨record, there⟩
        rcases changes.records there with ⟨before, here, -⟩ | ⟨made, named⟩
        · exact changes.keepsOpen (kept ⟨before, here⟩) closes
        · exact ⟨record, there, opens record made named⟩
      refine ⟨kept', fun alert mem named => ?_⟩
      rcases List.mem_cons.mp mem with same | mem
      · obtain ⟨rfl, ok⟩ := Happening.answered.inj same
        exact kept' (changes.created ok.symm id (congrArg some named))
      · exact changes.keepsOpen (created alert mem named) closes

end AlertStore

/-! ### Every event is accepted -/

def Happening.isRejection : Happening → Bool
  | .answered _ (.error (.rejected _)) => true
  | _ => false

/-- The store was never too full for an alert. -/
def World.NeverFull (w : World) : Prop :=
  ∀ what ∈ w.journal, what.isRejection = false

instance (w : World) : Decidable w.NeverFull :=
  inferInstanceAs (Decidable (∀ what ∈ w.journal, what.isRejection = false))

section Accepted

variable {w : World} {s₀ : AlertStore} {value : Nat → AlertId}

theorem World.accepted_produced {event : Event} (accounted : w.Accounted fun _ => none)
    (told : ∀ rule, (w.account rule).Told none) (mem : .answered event (.ok ()) ∈ w.journal) :
    event ∈ (w.account event.ruleId).produced := by
  have noted : Happening.answered event (.ok ()) ∈ (w.account event.ruleId).past :=
    List.mem_filter.mpr ⟨mem, decide_eq_true rfl⟩
  have ended : event ∈ (w.account event.ruleId).past.flatMap Happening.ended :=
    List.mem_flatMap.mpr ⟨_, noted, by simp [Happening.ended]⟩
  have handed := (accounted.balanced event.ruleId).events.symm.subset (List.mem_append_left _ ended)
  rw [(told event.ruleId).order, Work.todoOf, Option.map_none, Option.getD_none, List.append_nil,
    Account.handed, List.mem_reverse]
  exact handed

theorem Happening.mem_answeredIn {past : List Happening} {event : Event} :
    event ∈ answeredIn past ↔ ∃ answer, .answered event answer ∈ past := by
  rw [answeredIn, List.mem_reverse, List.mem_filterMap]
  constructor
  · rintro ⟨what, mem, answered⟩
    cases what with
    | answered event' answer =>
      obtain rfl := Option.some.inj answered
      exact ⟨answer, mem⟩
    | _ => exact absurd answered nofun
  · rintro ⟨answer, mem⟩
    exact ⟨_, mem, rfl⟩

theorem Happening.producedIn_append (later past : List Happening) :
    producedIn (later ++ past) = producedIn past ++ producedIn later := by
  simp [producedIn]

theorem AlertStore.Tells.opening_accepted {s : AlertStore} {later past : List Happening} {alert : Alert}
    {answer : Except SinkError Unit}
    (tells : s₀.Tells (later ++ .answered (.opened alert) answer :: past) s) (available : s₀.unavailable = false)
    (roomy : Happening.isRejection (.answered (.opened alert) answer) = false) : answer = .ok () := by
  obtain ⟨s', told, answered⟩ := tells.earlier
  rcases AlertStore.take_opened (told.available available) alert with ok | ⟨-, text, full⟩
  · exact answered.trans ok
  · rw [answered.trans full] at roomy
    exact absurd roomy nofun

/-- If an event ends an alert and all events of its rule before it were accepted, the store holds the alert open. -/
theorem World.holdsOpen_before_end {rule : RuleId} {id : AlertId} {s : AlertStore} {event : Event} {rest : List Event}
    {later past : List Happening} (empty : s₀.alerts = ∅) (available : s₀.unavailable = false)
    (lives : w.Lives (fun _ => none) value) (accounted : w.Accounted fun _ => none)
    (told : ∀ rule, (w.account rule).Told none) (never : w.NeverFull) (journal : w.journal = later ++ past)
    (tells : s₀.Tells past s) (all : Happening.AllAccepted (past.filter (·.ruleId = rule)))
    (produced : (w.account rule).produced = Happening.answeredIn (past.filter (·.ruleId = rule)) ++ event :: rest)
    (closes : event.closing? = some id) : s.HoldsOpen id := by
  have coheres := lives.coheres rule
  have once : (Event.opens (w.account rule).produced).Nodup := World.nodup_of_openings lives.once
  have closing := (coheres.alternates.closes_nodup once (by simp)).1
  have alternates := coheres.alternates
  rw [produced] at alternates closing
  obtain ⟨opening, there, opens⟩ := Event.mem_opens.mp (alternates.opened_before closes)
  obtain ⟨alert, rfl, named⟩ := Event.eq_opened opens
  obtain ⟨answer, answered⟩ := Happening.mem_answeredIn.mp there
  obtain rfl : answer = .ok () := by
    cases answer with
    | ok => rfl
    | error e => exact absurd answered (all _ e)
  have own : id ∈ Event.opens (w.account rule).produced := by
    rw [produced]
    exact Event.mem_opens.mpr ⟨_, List.mem_append_left _ there, opens⟩
  have noted {what : Happening} (mem : what ∈ past) : what ∈ w.journal :=
    journal ▸ List.mem_append_right later mem
  have live (alert' : Alert) (answer : Except SinkError Unit) (mem : .answered (.opened alert') answer ∈ past)
      (_ : alert'.id = id) : alert'.isOpen = true := by
    have roomy := never _ (noted mem)
    obtain ⟨after, before, rfl⟩ := List.append_of_mem mem
    have ok : answer = .ok () := tells.opening_accepted available roomy
    exact (lives.coheres _).live alert' (World.accepted_produced accounted told (ok ▸ noted mem))
  -- Were the alert closed before, its end would be among the events of the rule that were answered before this one.
  have unclosed (event' : Event) (mem : .answered event' (.ok ()) ∈ past) : event'.closing? ≠ some id := by
    intro closes'
    have made := World.accepted_produced accounted told (noted mem)
    have opened := (lives.coheres event'.ruleId).alternates.opened_of_closed
      (Event.mem_closes.mpr ⟨event', made, closes'⟩)
    obtain rfl := World.opener_unique lives.once opened own
    have first : event' ∈ Happening.answeredIn (past.filter (·.ruleId = event'.ruleId)) :=
      Happening.mem_answeredIn.mpr ⟨.ok (), List.mem_filter.mpr ⟨mem, decide_eq_true rfl⟩⟩
    rw [Event.closes_append, List.nodup_append] at closing
    exact closing.2.2 id (Event.mem_closes.mpr ⟨event', first, closes'⟩) id
      (Event.mem_closes_cons.mpr (.inl closes)) rfl
  exact (tells.holdsOpen empty available live unclosed).2 alert (List.mem_filter.mp answered).1 named

/-- In an account that is smooth the first refusal does not come: an alert is closed only while it is open in the
store. -/
theorem World.no_refusal {rule : RuleId} (empty : s₀.alerts = ∅) (available : s₀.unavailable = false)
    (tells : s₀.Tells w.journal w.sink.store) (lives : w.Lives (fun _ => none) value)
    (accounted : w.Accounted fun _ => none) (told : ∀ rule, (w.account rule).Told none)
    (never : w.NeverFull)
    {later past : List Happening} {event : Event} {error : SinkError} {rest : List Event}
    (whole : (w.account rule).past = later ++ .answered event (.error error) :: past)
    (all : Happening.AllAccepted past)
    (order : Happening.producedIn past = Happening.answeredIn past ++ event :: rest) : False := by
  obtain ⟨before, after, journal, -, split⟩ := List.filter_eq_append_iff.mp whole
  obtain ⟨between, earlier, rfl, -, -, rfl⟩ := List.filter_eq_cons_iff.mp split
  rw [← List.append_assoc] at journal
  rw [journal] at tells
  cases event with
  | opened alert =>
    have roomy := never (.answered (.opened alert) (.error error)) (by rw [journal]; simp)
    exact absurd (tells.opening_accepted available roomy) nofun
  | resolved id rule' time reason =>
    obtain ⟨s, told', answer⟩ := tells.earlier
    have produced : (w.account rule).produced = Happening.answeredIn (earlier.filter (·.ruleId = rule)) ++
        .resolved id rule' time reason :: (rest ++ Happening.producedIn
          (later ++ [.answered (.resolved id rule' time reason) (.error error)])) := by
      have same : (w.account rule).produced = Happening.producedIn (w.account rule).past := rfl
      rw [same, whole, List.append_cons, Happening.producedIn_append, order, List.append_assoc]
      rfl
    rw [List.append_cons] at journal
    have held := World.holdsOpen_before_end empty available lives accounted told never journal told' all produced rfl
    exact absurd (answer.trans ((AlertStore.take_resolved (told'.available available) rule' time reason).1 held.holds))
      nofun

end Accepted

/-! ### One call after the other -/

theorem Call.admitted_of_routine {c : Call} (routine : c.IsRoutine) : c.Admitted .serving := by
  cases c with
  | recover => exact routine.elim
  | _ => exact nofun

section Courses

variable {admitted : Call → Prop} {outside : World → World → Prop} {w w' : World}

theorem CallThread.Completes.run {c : CallThread Reply} {reply : Reply} (completes : c.Completes outside w w' reply)
    {calls : List (CallThread Reply)} {i : Nat} (member : calls[i]? = some c) :
    Scene.Run admitted outside { world := w, calls } { world := w', calls := calls.set i (.finished reply) } := by
  induction completes generalizing calls with
  | finished =>
    rw [set_of_getElem? member]
    exact .refl
  | @polled w w₁ w' c reply waits change rest ih =>
    have inside : i < calls.length := (List.getElem?_eq_some_iff.mp member).1
    have changed : Scene.Run admitted outside { world := w, calls } { world := w₁, calls } :=
      .single (.outside change)
    have polled : Scene.Run admitted outside { world := w₁, calls }
        { world := (CallThread.poll c w₁).1, calls := calls.set i (CallThread.poll c w₁).2 } := Scene.run_poll member
    have later := ih (List.getElem?_set_self inside)
    rw [List.set_set] at later
    exact (changed.trans polled).trans later

/-- A call that is made alone is one way for calls to be interleaved. -/
theorem Passage.Runs.run {p : Passage} (runs : p.Runs outside) (ok : admitted p.call)
    (calls : List (CallThread Reply)) :
    Scene.Run admitted outside { world := p.before, calls }
      { world := p.after, calls := calls ++ [.finished p.reply] } := by
  let started := CallThread.start p.call.program p.before
  have made : Scene.Run admitted outside { world := p.before, calls }
      { world := started.1, calls := calls ++ [started.2] } := Scene.run_make _ ok
  have completes : CallThread.Completes outside started.1 started.2 p.after p.reply := runs
  have member : (calls ++ [started.2])[calls.length]? = some started.2 := by simp
  have later : Scene.Run admitted outside { world := started.1, calls := calls ++ [started.2] } _ :=
    completes.run member
  rw [List.set_append_right _ _ (Nat.le_refl _), Nat.sub_self, List.set_cons_zero] at later
  exact made.trans later

theorem Course.run {ps : List Passage} (course : Course (Passage.Runs outside) outside w ps w')
    (ok : ∀ p ∈ ps, admitted p.call) (calls : List (CallThread Reply)) :
    Scene.Run admitted outside { world := w, calls }
      { world := w', calls := calls ++ ps.map fun p => .finished p.reply } := by
  induction course generalizing calls with
  | nil =>
    rw [List.map_nil, List.append_nil]
    exact .refl
  | @cons w p ps w' gap ran rest ih =>
    obtain ⟨here, others⟩ := List.forall_mem_cons.mp ok
    have changed : Scene.Run admitted outside { world := w, calls } { world := p.before, calls } :=
      .single (.outside gap)
    have later := ih others (calls ++ [.finished p.reply])
    rw [List.append_assoc] at later
    exact (changed.trans (ran.run here calls)).trans later

/-- Nothing waits, and the alerts that are open in the store are those that are tracked. -/
structure World.Settled (w : World) : Prop where
  plain : w.sink = { store := w.sink.store }
  available : w.sink.store.unavailable = false
  named : ∀ {id record}, w.sink.store.get? id = some record → record.id = id
  backlog : ∀ rule, w.backlog rule = []
  stored : ∀ rule id, w.sink.store.OpenOf rule id ↔ w.openAlert rule = some id
  used : ∀ rule id, w.openAlert rule = some id → ∃ n < w.ids.taken, w.ids.value n = id
  distinct : Injective w.ids.value

/-- On a new engine and an empty store that is available, while calls are made one at a time and the store is never
full: nothing waits between two calls, and the alerts that are open in the store are those that are tracked. -/
theorem Course.settled {ps : List Passage} (begins : w.Begins) (empty : w.sink.store.alerts = ∅)
    (available : w.sink.store.unavailable = false) (plain : w.sink = { store := w.sink.store })
    (distinct : Injective w.ids.value)
    (course : Course (Passage.Runs World.BesideSink) World.BesideSink w ps w')
    (routine : ∀ p ∈ ps, p.call.IsRoutine)
    (never : w'.NeverFull) : w'.Settled := by
  have mirrors : w.Mirrors w.sink.store := by
    refine ⟨plain, ?_⟩
    rw [begins.journal]
    exact .nothing
  have mirrors' := course.mirrors routine mirrors
  have run := (course.run (fun p mem => Call.admitted_of_routine (routine p mem)) []).mono fun change =>
    (⟨change.1, by rw [change.2]⟩ : World.Apart _ _)
  have finished : Scene.AllFinished { world := w', calls := [] ++ ps.map fun p => .finished p.reply } := by
    intro c mem
    obtain ⟨p, -, rfl⟩ := List.mem_map.mp mem
    exact ⟨p.reply, rfl⟩
  have kept := (((kept_filed distinct).and (kept_accounted .serving)).and kept_told).and kept_smooth
  have filed : Bears World.Apart (World.Filed w.ids.value) := bears_filed
  have bears := (filed.and bears_accounted.apart).and
    (Bears.apart (bears_accounts (P := fun _ a x => a.Told x))) |>.and
      (Bears.apart (bears_accounts (P := fun _ a x => a.Smooth x)))
  obtain ⟨st, holders, sound⟩ := (Scene.sound_begins begins
    ⟨⟨⟨begins.filed empty, begins.accounted⟩, begins.told⟩, begins.smooth⟩).run kept bears run (by simp)
  have property := sound.property
  rw [sound.nobody finished] at property
  obtain ⟨⟨⟨filed, accounted⟩, told⟩, smooth⟩ := property
  have clean (rule : RuleId) : (w'.account rule).outbox = [] ∧ (w'.account rule).abandoned = [] := by
    cases smooth rule with
    | accepted all none kept => exact ⟨none, kept⟩
    | refused whole all order =>
      exact (World.no_refusal empty available mirrors'.tells filed.lives accounted told never whole all order).elim
  have backlog (rule : RuleId) : w'.backlog rule = [] := by
    rw [World.backlog, (clean rule).1]
    rfl
  refine ⟨mirrors'.plain, mirrors'.tells.available available, fun there => (filed.owned there).1, backlog,
    fun rule id => ?_, fun rule id open_ => ?_, filed.lives.supply ▸ distinct⟩
  · rw [← filed.leads (clean rule).2]
    have none : (w'.account rule).outbox.pending Option.none = [] := backlog rule
    rw [none]
    rfl
  · have opened := ((filed.lives.coheres rule).alternates.opened_of_now open_).resolve_left (by simp)
    obtain ⟨n, before, same⟩ := filed.lives.used id (World.openings_of_produced opened)
    exact ⟨n, before, filed.lives.supply ▸ same⟩

end Courses

end ThresholdAlerts
