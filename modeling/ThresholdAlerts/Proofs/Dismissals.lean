import ThresholdAlerts.Proofs.Evaluations
/-! Dismissals: a sample that was taken for a rule may get the slot of the rule late, when the rule watches another
metric. Main statement: it leaves the state of the rule as it was if an alert is open or something waits to be
sent, and takes the rule back to an untouched state otherwise; whoever gets the slot next finds what it left. -/
namespace ThresholdAlerts

open Function Relation

/-- The next poll of a thread hands over a slot. -/
def Thread.Gets (w : World) (th : Thread T C α) (w' : World) (id : SlotId) : Prop :=
  match th with
  | .waiting r _ wait _ => ∃ a, r.poll wait w = (w', .answered a) ∧ r.got? a = some id
  | _ => False

/-- The next poll of a call, or of one of its visits, hands over a slot. -/
def Scene.Gets (s : Scene) (w : World) (id : SlotId) : Prop :=
  ∃ c ∈ s.calls, Thread.Gets s.world c w id ∨ ∃ k v, c.visit? k = some v ∧ Thread.Gets s.world v w id

/-- A visit that waits for the slot of a rule to evaluate a sample. -/
def Visit.awaiting (rule : RuleId) (metric : String) (value : Float) (time : Timestamp) (ticket : Ticket)
    (wait : Request.Wait (.slot rule)) : Strand :=
  .waiting (.slot rule) ticket wait fun slot => evaluateIn slot rule metric value time

/-- The slot of a rule is handed over with what was in it. -/
structure World.Hands (w w' : World) (rule : RuleId) (id : SlotId) (ticket : Ticket) : Prop where
  coherent : w'.engine.tracker.Coherent
  found : w'.engine.tracker.find? rule = some id
  head : (w'.slot id).queue.head? = some ticket
  contents : w'.contents rule = w.contents rule
  respects : w.engine.tracker.Respects ticket w'.engine.tracker
  rules : w'.engine.rules = w.engine.rules

/-- What a late evaluation leaves of the state of a rule. -/
def World.leftBehind (w : World) (rule : RuleId) : FiringState :=
  if (w.contents rule).1.isOpen ∨ (w.contents rule).2 ≠ [] then (w.contents rule).1 else .initial rule

variable {regime : Regime} {σ : Stance} {w w' : World} {rule : RuleId} {id : SlotId} {ticket : Ticket}

theorem World.Hands.state (h : w.Hands w' rule id ticket) : (w'.slot id).state = (w.contents rule).1 := by
  rw [← h.contents, World.contents_of_find h.found]

/-! ### Getting a slot -/

theorem Request.hands_claim (coherent : w.engine.tracker.Coherent) {c : Claim} (queued : w.engine.tracker.Queued c)
    (granted : (pollClaim w c).2 = .granted id) : w.Hands (pollClaim w c).1.moved c.rule id c.ticket := by
  have polled := claimPolled coherent queued
  generalize pollClaim w c = result at polled granted
  cases polled with
  | @granted w₁ c' shuffles same _ _ found head =>
    obtain rfl := Grant.granted.inj granted
    have coherent := shuffles.shifts.coherent
    have there := coherent.get found
    have rewrites := w₁.engine.tracker.rewrites_take c'
    exact ⟨rewrites.coherent coherent there, (rewrites.find? _).trans found,
      (congrArg List.head? (rewrites.queue there)).trans head,
      (World.contents_take coherent found c.rule).trans (World.contents_of_alike (shuffles.shifts.alike c.rule)),
      shuffles.shifts.respects.trans (rewrites.respects head), shuffles.rules⟩
  | waits => exact absurd granted (by simp)
  | lapses => exact absurd granted (by simp)

theorem Request.pollClaim_of_slot {c : Claim} {a : SlotId}
    (polled : poll (.slot rule) (some c) w = (w', .answered a)) :
    (pollClaim w c).2 = .granted a ∧ w' = (pollClaim w c).1.moved := by
  rw [poll] at polled
  generalize pollClaim w c = result at polled
  obtain ⟨w₁, grant⟩ := result
  cases grant with
  | granted id =>
    obtain ⟨rfl, same⟩ := Prod.mk.inj polled
    exact ⟨congrArg Grant.granted (Progress.answered.inj same), rfl⟩
  | waiting c' => exact absurd (congrArg Prod.snd polled) (by simp)
  | absent => exact absurd (congrArg Prod.snd polled) (by simp)

theorem Request.pollClaim_of_existingSlot {c : Claim} {a : SlotId}
    (polled : poll (.existingSlot rule) (some c) w = (w', .answered (some a))) :
    (pollClaim w c).2 = .granted a ∧ w' = (pollClaim w c).1.moved := by
  rw [poll] at polled
  generalize pollClaim w c = result at polled
  obtain ⟨w₁, grant⟩ := result
  cases grant with
  | granted id =>
    obtain ⟨rfl, same⟩ := Prod.mk.inj polled
    exact ⟨congrArg Grant.granted (Option.some.inj (Progress.answered.inj same)), rfl⟩
  | waiting c' => exact absurd (congrArg Prod.snd polled) (by simp)
  | absent => exact absurd (Progress.answered.inj (Prod.mk.inj polled).2) (by simp)

theorem Request.hands_knownSlot (coherent : w.engine.tracker.Coherent) {c : Claim} (queued : w.engine.tracker.Queued c)
    (polled : poll (.knownSlot c.slot) c.ticket w = (w', .answered true)) : w.Hands w' c.rule c.slot c.ticket := by
  obtain ⟨s, got, named, -⟩ := queued.waits
  obtain rfl : w.engine.tracker.slot c.slot = s := Tracker.slot_of_get got
  rw [poll] at polled
  split at polled
  · exact absurd (Progress.answered.inj (Prod.mk.inj polled).2) (by simp)
  · split at polled
    · next holds =>
      split at polled
      · exact absurd (Progress.answered.inj (Prod.mk.inj polled).2) (by simp)
      · next attached =>
        obtain rfl := (Prod.mk.inj polled).1
        have attached : (w.engine.tracker.slot c.slot).detached = false := Bool.eq_false_iff.mpr attached
        exact ⟨coherent, named ▸ coherent.kept got attached, head_of_holds holds, rfl, .refl _ _, rfl⟩
    · exact absurd (congrArg Prod.snd polled) (by simp)

/-- Whoever gets a slot has waited for it, and finds what was left in it. -/
theorem Request.hands {r : Request} {wait : r.Wait} {next : r.Answer → Stance → World → Prop} {a : r.Answer}
    (coherent : w.engine.tracker.Coherent) (stands : σ.Stands w) (awaits : r.Awaits regime wait σ w next)
    (polled : r.poll wait w = (w', .answered a)) (got : r.got? a = some id) :
    ∃ rule ticket, σ.ticket? = some ticket ∧ w.Hands w' rule id ticket := by
  cases r with
  | slot rule =>
    cases wait with
    | none => exact awaits.elim
    | some c =>
      obtain ⟨rfl, rfl, -⟩ := awaits
      obtain rfl := Option.some.inj got
      obtain ⟨granted, rfl⟩ := pollClaim_of_slot polled
      exact ⟨c.rule, c.ticket, rfl, hands_claim coherent stands granted⟩
  | existingSlot rule =>
    cases wait with
    | none => exact awaits.elim
    | some c =>
      obtain ⟨rfl, rfl, -⟩ := awaits
      obtain rfl : a = some id := got
      obtain ⟨granted, rfl⟩ := pollClaim_of_existingSlot polled
      exact ⟨c.rule, c.ticket, rfl, hands_claim coherent stands granted⟩
  | knownSlot id' =>
    cases a with
    | false => exact absurd got (by simp [got?])
    | true =>
      obtain rfl := Option.some.inj got
      rcases awaits.1 with ⟨rule, rfl⟩ | ⟨-, -, gone⟩
      · exact ⟨rule, _, rfl, hands_knownSlot coherent stands polled⟩
      · have missing : w.engine.tracker.slots.contains id' = false := by
          rw [Std.TreeMap.contains_eq_isSome_getElem?, gone]
          rfl
        rw [poll, missing] at polled
        exact absurd (Progress.answered.inj (Prod.mk.inj polled).2) (by simp)
  | _ => exact absurd got (by simp [got?])

/-! ### Letting go of a slot -/

theorem World.contents_dismiss (coherent : w.engine.tracker.Coherent) (found : w.engine.tracker.find? rule = some id) :
    ((w.dismiss id).contents rule).1 = w.leftBehind rule := by
  have here := contents_of_find found
  have left := contents_leave coherent id rule
  rw [dismiss, leftBehind, here]
  cases opened : (w.slot id).state.isOpen with
  | true => rw [if_pos rfl, if_pos (.inl rfl), left, here]
  | false =>
    have rewrites := w.engine.tracker.rewrites_retire id
    have coherent' : (w.onTracker (·.retire id)).engine.tracker.Coherent :=
      rewrites.coherent coherent (coherent.get found)
    have found' : (w.onTracker (·.retire id)).engine.tracker.find? rule = some id := (rewrites.find? rule).trans found
    have retired := congrArg Slot.retired (w.slot_retire id)
    have outbox := congrArg Slot.outbox (w.slot_retire id)
    rw [if_neg Bool.false_ne_true]
    by_cases waits : (w.slot id).outbox = []
    · have spent := contents_of_spent coherent' found' retired (outbox.trans waits)
      rw [spent, if_neg (by simp [waits])]
    · rw [release_of_kept (.inr fun empty => waits (outbox.symm.trans empty)), if_pos (.inr waits),
        contents_leave coherent', contents_retire coherent found, here]

theorem stretch_evaluateIn_late {T C : Type} (t : Tasks T C) {metric : String} {r : Rule} (value : Float)
    (time : Timestamp) (current : w.rule? rule = some r) (elsewhere : r.metricKey ≠ metric) :
    (evaluateIn id rule metric value time : Prog T (List Event)).stretch t w = (w.dismiss id, .finished []) := by
  have watched : (w.rule? rule).filter (·.metricKey = metric) = none := by
    rw [current, Option.filter_some, if_neg (by simpa using elsewhere)]
  rw [evaluateIn, Prog.stretch_read, watched]
  rfl

/-! ### While nobody gets the slot -/

/-- Nobody has the slot of a rule, and this is its state. -/
def Untouched (rule : RuleId) (state : FiringState) (w : World) (holders : RuleId → Option Work) : Prop :=
  holders rule = none ∧ (w.contents rule).1 = state

theorem kept_untouched (rule : RuleId) (state : FiringState) :
    KeptBarring regime (· = rule) (Untouched rule state) where
  still := fun {w w' holders} still untouched => by
    have same := congrArg Account.state (still.account rule)
    exact ⟨untouched.1, same.trans untouched.2⟩
  happens := fun {w w' holders rule' id x} attended spares happens untouched => by
    have ne : rule ≠ rule' := fun same => spares (same ▸ untouched.1) same.symm
    have others := congrArg Account.state ((attended.advances happens).others ne)
    exact ⟨(update_of_ne ne _ _).trans untouched.1, others.trans untouched.2⟩

theorem bears_untouched (rule : RuleId) (state : FiringState) : Bears World.Elsewhere (Untouched rule state) where
  elsewhere change := change
  kept change untouched := ⟨untouched.1, (congrArg Account.state (change.account rule)).trans untouched.2⟩

section Scenes

variable {I : World → (RuleId → Option Work) → Prop} {st : Place → Stance} {holders : RuleId → Option Work}
  {p q : Place} {s s' : Scene}

theorem Orderly.hands_only (o : Orderly w st holders) (hands : w.Hands w' rule id ticket)
    (own : (st p).ticket? = some ticket) (ne : q ≠ p) {id' : SlotId} {ticket' : Ticket} {work : Work} :
    st q ≠ .holding rule id' ticket' work := by
  intro other
  have strange : (st q).ticket? ≠ some ticket := fun same => ne (o.apart same own)
  have stands := ((o.stands q).respected (.of_rules hands.respects hands.rules) strange).1
  rw [other] at stands strange
  obtain ⟨found, head⟩ := stands
  obtain rfl := Option.some.inj (hands.found.symm.trans found)
  exact strange (head.symm.trans hands.head)

theorem Thread.Sound.gets {tasks : T → Prop} {th : Thread T C α} (sound : th.Sound regime tasks σ w)
    (coherent : w.engine.tracker.Coherent) (stands : σ.Stands w) (gets : th.Gets w w' id) :
    (w'.slot id).state = (w.contents (w'.slot id).ruleId).1 := by
  cases th with
  | waiting r _ wait next =>
    obtain ⟨a, polled, got⟩ := gets
    obtain ⟨rule, ticket, -, hands⟩ := Request.hands coherent stands sound polled got
    have named : (w'.slot id).ruleId = rule := hands.coherent.ruleId hands.found
    rw [named]
    exact hands.state
  | _ => exact gets.elim

theorem Scene.Sound.gets (h : s.Sound regime I st holders) (gets : s.Gets w' id) :
    (w'.slot id).state = (s.world.contents (w'.slot id).ruleId).1 := by
  obtain ⟨c, mem, own | ⟨k, v, visit, theirs⟩⟩ := gets
  · obtain ⟨i, here⟩ := List.getElem?_of_mem mem
    exact (h.calls here).own.gets h.orderly.coherent (h.orderly.stands _) own
  · obtain ⟨i, here⟩ := List.getElem?_of_mem mem
    exact ((h.calls here).visits visit).gets h.orderly.coherent (h.orderly.stands _) theirs

theorem Scene.Sound.untouched {state : FiringState} (h : s.Sound .mixed (Untouched rule state) st holders)
    (run : ReflTransGen (Scene.Sparing (· = rule) (Call.Admitted .mixed) World.Elsewhere) s s') :
    ∃ st' holders', s'.Sound .mixed (Untouched rule state) st' holders' := by
  induction run with
  | refl => exact ⟨st, holders, h⟩
  | tail _ step ih =>
    obtain ⟨st₁, holders₁, h₁⟩ := ih
    exact h₁.sparing (kept_untouched rule state) (bears_untouched rule state) step nofun

/-- When a visit finds its rule on another metric it ends, and nobody has the slot of the rule. -/
theorem Scene.Sound.dismissed (h : s.Sound .mixed (fun _ _ => True) st holders) {i k : Nat}
    {children : List Strand} {line : Line} {next : List (List Event) → Prog Visit Reply} {metric : String}
    {value : Float} {time : Timestamp} {wait : Request.Wait (.slot rule)} {r : Rule}
    (here : s.calls[i]? = some (.joining children line next))
    (visit : children[k]? = some (Visit.awaiting rule metric value time ticket wait))
    (granted : (Request.slot rule).poll wait s.world = (w, .answered id))
    (current : s.world.rule? rule = some r) (elsewhere : r.metricKey ≠ metric) :
    (w.slot id).state = (s.world.contents rule).1 ∧
      (evaluateIn id rule metric value time : Prog Empty (List Event)).stretch Tasks.none w =
        (w.dismiss id, .finished []) ∧
      ∃ st' holders', Scene.Sound .mixed (Untouched rule (s.world.leftBehind rule))
        { world := w.dismiss id, calls := s.calls.set i (.joining (children.set k (.finished [])) line next) }
        st' holders' := by
  have awaits : Request.Awaits .mixed (.slot rule) wait (st (i, some k)) s.world _ := (h.calls here).visits visit
  have stands := h.orderly.stands (i, some k)
  obtain ⟨c, rfl⟩ : ∃ c, wait = some c := by
    cases wait with
    | none => exact awaits.elim
    | some c => exact ⟨c, rfl⟩
  obtain ⟨queued, rfl, -⟩ := awaits
  rw [queued] at stands
  obtain ⟨grant, rfl⟩ := Request.pollClaim_of_slot granted
  have hands := Request.hands_claim h.orderly.coherent stands grant
  have known : (Request.pollClaim s.world c).1.moved.rule? c.rule = some r := by
    rw [World.rule?, hands.rules]
    exact current
  have late : (evaluateIn id c.rule metric value time : Prog Empty (List Event)).stretch Tasks.none _ = _ :=
    stretch_evaluateIn_late Tasks.none value time known elsewhere
  have move : Strand.Move s.world (Visit.awaiting c.rule metric value time ticket (some c)) _ _ := .resume granted
  rw [late] at move
  have kept : Kept .mixed fun _ _ => True := ⟨fun _ any => any, fun _ _ any => any⟩
  obtain ⟨σ', holders', free, sound⟩ := h.visit_spared (kept.barring _) here visit move.sparing
  refine ⟨hands.state, late, _, holders', sound.imp ⟨?_, ?_⟩⟩
  · cases held : holders' c.rule with
    | none => rfl
    | some work =>
      obtain ⟨q, id', ticket', there⟩ := sound.orderly.held.mp held
      by_cases same : q = (i, some k)
      · subst same
        rw [update_self, show σ' = .free from free] at there
        exact absurd there (by simp)
      · rw [update_of_ne same] at there
        exact absurd there (h.orderly.hands_only hands (by rw [queued]; rfl) same)
  · rw [World.contents_dismiss hands.coherent hands.found, World.leftBehind, hands.contents, World.leftBehind]

/-- A visit gets the slot of its rule, which is still there but watches another metric. However the calls go on,
the rule has the state that it had before if an alert was open or something waited to be sent, and an untouched
one otherwise; and that is what the next one finds who gets the slot. -/
theorem Scene.state_after_late_sample {w₀ : World} (begins : w₀.Begins)
    (run : Scene.Run (Call.Admitted .mixed) World.Elsewhere { world := w₀ } s) {i k : Nat} {children : List Strand}
    {line : Line} {next : List (List Event) → Prog Visit Reply} {metric : String} {value : Float} {time : Timestamp}
    {wait : Request.Wait (.slot rule)} {r : Rule} (here : s.calls[i]? = some (.joining children line next))
    (visit : children[k]? = some (Visit.awaiting rule metric value time ticket wait))
    (granted : (Request.slot rule).poll wait s.world = (w, .answered id))
    (current : s.world.rule? rule = some r) (elsewhere : r.metricKey ≠ metric) :
    let before := s.world.contents rule
    let left := if before.1.isOpen ∨ before.2 ≠ [] then before.1 else .initial rule
    let ended := (evaluateIn id rule metric value time : Prog Empty (List Event)).stretch Tasks.none w
    let s₁ : Scene := { world := ended.1, calls := s.calls.set i (.joining (children.set k ended.2) line next) }
    (w.slot id).state = before.1 ∧ ended.2 = .finished [] ∧
      ∀ s', ReflTransGen (Scene.Sparing (· = rule) (Call.Admitted .mixed) World.Elsewhere) s₁ s' →
        (s'.world.contents rule).1 = left ∧
        ∀ w' id', s'.Gets w' id' → (w'.slot id').ruleId = rule → (w'.slot id').state = left := by
  intro before left ended s₁
  have kept : Kept .mixed fun _ _ => True := ⟨fun _ any => any, fun _ _ any => any⟩
  obtain ⟨st, holders, sound⟩ := (Scene.sound_begins begins trivial).run kept ⟨fun change => change, fun _ any => any⟩
    run nofun
  obtain ⟨found, late, st₁, holders₁, sound₁⟩ := sound.dismissed here visit granted current elsewhere
  refine ⟨found, congrArg Prod.snd late, fun s' later => ?_⟩
  simp only [s₁, ended, late] at later
  obtain ⟨st', holders', sound'⟩ := sound₁.untouched later
  refine ⟨sound'.property.2, fun w' id' gets named => ?_⟩
  have state := sound'.gets gets
  rw [named] at state
  exact state.trans sound'.property.2

end Scenes

/-! ### A sample that is overtaken -/

def Rule.highHeat : Rule :=
  { Rule.highLoad with metricKey := "heat", required := 3 }

def Sample.peak : Sample :=
  { metricKey := "load", value := 95, time := default }

def Scene.begin (s : Scene) (c : Call) : Scene :=
  let begun := c.program.stretch Visit.tasks s.world
  { world := begun.1, calls := s.calls ++ [begun.2] }

theorem Scene.run_begin {admitted : Call → Prop} {outside : World → World → Prop} (s : Scene) {c : Call}
    (ok : admitted c) : Scene.Run admitted outside s (s.begin c) := by
  have made : Scene.Step admitted outside s { s with calls := s.calls ++ [.ready c.program] } := .call c ok
  have member : (s.calls ++ [.ready c.program])[s.calls.length]? = some (.ready c.program) := by simp
  have begun : Scene.Step admitted outside { s with calls := s.calls ++ [.ready c.program] } _ := .move member .begin
  rw [List.set_append_right _ _ (Nat.le_refl _), Nat.sub_self, List.set_cons_zero] at begun
  exact (ReflTransGen.single made).tail begun

def Scene.loaded : Scene :=
  Scene.make { world := .watched { workers := 1 } {} } .refresh

/-- The rules are edited at their source. -/
def Scene.edited (s : Scene) (rules : List Rule) : Scene :=
  { s with world := { s.world with source.contents := .listed rules } }

theorem Scene.run_edited {admitted : Call → Prop} (s : Scene) (rules : List Rule) :
    Scene.Run admitted World.Elsewhere s (s.edited rules) := by
  have moved (w : World) (source : RuleSource) : w.Elsewhere { w with source } :=
    ⟨source, w.sink, w.clock, w.calendar, w.jitter, w.lulls, w.woken, Nat.le_refl _, rfl⟩
  exact .single (.outside (moved s.world _))

/-- While a call that takes a sample of the load has not begun to judge it, the rule moves to the heat, and one
breach is counted there. -/
def Scene.overtaken : Scene :=
  let s := (Scene.loaded.begin Sample.peak.call).edited [.highHeat]
  (s.make .refresh).make (.sample "heat" 95 default)

theorem Scene.run_overtaken :
    Scene.Run (Call.Admitted .mixed) World.Elsewhere { world := .watched { workers := 1 } {} } Scene.overtaken :=
  (((Scene.run_make _ nofun).trans (Scene.run_begin Scene.loaded nofun)).trans (Scene.run_edited _ _)).trans
    ((Scene.run_make _ nofun).trans (Scene.run_make _ nofun))

theorem Scene.calls_overtaken : Scene.overtaken.calls[1]? =
    some (.joining [.ready (Visit.evaluate "high-load" "load" 95 default).program] {}
      fun results => .done (.events results.flatten)) := by
  obtain ⟨w, -, begun⟩ := stretch_sample (w := Scene.loaded.world) Sample.peak (by decide +kernel) (by decide +kernel)
  have watched : (Scene.loaded.world.watchers "load").map Rule.id = ["high-load"] := by decide +kernel
  obtain ⟨r, watchers, named⟩ := List.map_eq_singleton_iff.mp watched
  have here : Scene.overtaken.calls[1]? =
      some (Sample.peak.call.program.stretch Visit.tasks Scene.loaded.world).2 := rfl
  have set : Sample.peak.judging [r] = .joining [.ready (Visit.evaluate r.id "load" 95 default).program] {}
      fun results => .done (.events results.flatten) := rfl
  have watching : Scene.loaded.world.watchers Sample.peak.metricKey = [r] := watchers
  rw [here, begun, watching, set, named]

/-- The streak of the rule is lost on the sample of the load. -/
theorem Scene.streak_lost_when_overtaken :
    (Scene.overtaken.world.contents "high-load").1.phase = .pending 1 ∧
      ∃ s₁, Scene.Run (Call.Admitted .mixed) World.Elsewhere Scene.overtaken s₁ ∧
        ∀ s', ReflTransGen (Scene.Sparing (· = "high-load") (Call.Admitted .mixed) World.Elsewhere) s₁ s' →
          ∀ w id, s'.Gets w id → (w.slot id).ruleId = "high-load" → (w.slot id).state = .initial "high-load" := by
  let c : Claim := { ticket := 10, rule := "high-load", mode := .create, slot := 0 }
  let asked (w : World) := Request.start (.slot "high-load") w.moves w.takeTicket.1
  have pending : (Scene.overtaken.world.contents "high-load").1.phase = .pending 1 := by decide +kernel
  have claimed : (asked Scene.overtaken.world).2 = some c := by decide +kernel
  have grant : (Request.pollClaim (asked Scene.overtaken.world).1 c).2 = .granted 0 := by decide +kernel
  have heat : ((asked Scene.overtaken.world).1.rule? "high-load").map Rule.metricKey = some "heat" := by decide +kernel
  have left : (asked Scene.overtaken.world).1.leftBehind "high-load" = .initial "high-load" := by decide +kernel
  have run := Scene.run_overtaken
  have set := Scene.calls_overtaken
  -- From here on it does not matter how the scene came about.
  generalize Scene.overtaken = s at *
  obtain ⟨r, current, named⟩ := Option.map_eq_some_iff.mp heat
  let visit := Visit.awaiting "high-load" "load" 95 default s.world.moves (asked s.world).2
  let next : List (List Event) → Prog Visit Reply := fun results => .done (.events results.flatten)
  let s₁ : Scene := { world := (asked s.world).1, calls := s.calls.set 1 (.joining [visit] {} next) }
  have entered : Scene.Step (Call.Admitted .mixed) World.Elsewhere s s₁ := .move set (.child (i := 0) rfl .begin)
  have inside : 1 < s.calls.length := (List.getElem?_eq_some_iff.mp set).1
  have here : s₁.calls[1]? = some (.joining [visit] {} next) := List.getElem?_set_self inside
  have granted : (Request.slot "high-load").poll (asked s.world).2 (asked s.world).1 =
      ((Request.pollClaim (asked s.world).1 c).1.moved, .answered 0) := by
    rw [claimed]
    exact Request.poll_slot_of_granted grant
  have dismissed : Scene.Step (Call.Admitted .mixed) World.Elsewhere s₁ _ :=
    .move here (.child (i := 0) rfl (.resume granted))
  have after := Scene.state_after_late_sample (World.begins_watched _ _) (run.tail entered) here (k := 0) rfl granted
    current (by rw [named]; decide)
  refine ⟨pending, _, (ReflTransGen.single entered).tail dismissed, fun s' later w id gets about => ?_⟩
  exact ((after.2.2 s' later).2 w id gets about).trans left

end ThresholdAlerts
