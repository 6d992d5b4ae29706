import ThresholdAlerts.Proofs.Scenes
/-! Progress. Calls queue for slots and for their turn to refresh the rules; a call may hold many slots at once
through the visits that it does side by side, while others queue for them. Main statement: they never all wait
for each other; as long as a call is unfinished, one of the threads can go on, or is inside a call to the sink or
to a repository. -/
namespace ThresholdAlerts

/-- The answer comes from the sink, or from a repository of rules or of alerts. -/
def Request.IsOutside : Request → Prop
  | .deliver _ => True
  | .fetch => True
  | .findOpen _ => True
  | .findAll => True
  | _ => False

/-- A thread that does not wait for a lock: it can go on, or what it waits for is not in the hands of a call. -/
inductive Thread.Awake {T C α : Type} (t : Tasks T C) (w : World) : Thread T C α → Prop
  | begins {p} : Awake t w (.ready p)
  | outside {r ticket wait next} (outside : r.IsOutside) : Awake t w (.waiting r ticket wait next)
  | answered {r ticket wait next w' a} (polled : r.poll wait w = (w', .answered a)) :
      Awake t w (.waiting r ticket wait next)
  | joins {children line next results} (all : t.results? children = some results) :
      Awake t w (.joining children line next)

/-- A call, or one of the visits that it does side by side, does not wait for a lock. -/
def Scene.Lively (s : Scene) : Prop :=
  ∃ (i : Nat) (c : CallThread Reply), s.calls[i]? = some c ∧
    (Thread.Awake Visit.tasks s.world c ∨ ∃ k v, c.visit? k = some v ∧ Thread.Awake Tasks.none s.world v)

def World.Busy (w : World) : Prop :=
  ∃ id, (w.slot id).detached = false ∧ w.queue (.slot id) ≠ []

variable {regime : Regime} {T C α : Type} {tasks : T → Prop} {σ : Stance} {w : World}

/-! ### Claims -/

/-- A new claim is at the front of its queue, or others waited for the slot that the rule had. -/
theorem Request.claim_front (coherent : w.engine.tracker.Coherent) {w' : World} {ticket : Ticket} {rule : RuleId}
    {mode : Acquire} {c : Claim} (claimed : claim w ticket rule mode = (w', some c)) :
    w'.engine.tracker.holds c.slot c.ticket = true ∨
      w.engine.tracker.find? rule = some c.slot ∧ w.queue (.slot c.slot) ≠ [] := by
  have made : (w.engine.tracker.request ticket rule mode).2 = some c := congrArg Prod.snd claimed
  have joined := queue_claim coherent (congrArg Prod.snd claimed)
  rw [claimed] at joined
  by_cases empty : w.queue (.slot c.slot) = []
  · have head : (w'.queue (.slot c.slot)).head? = some c.ticket := by
      rw [joined, Option.elim_some, Function.update_self, empty,
        ((Tracker.request_spec coherent ticket rule mode).claimed made).1]
      rfl
    exact .inl (decide_eq_true head)
  · exact .inr ⟨Tracker.find?_of_waits coherent made empty, empty⟩

/-- A claim at the front of a queue is granted or lapses. But the slot may be detached, and its rule may have got
another one, for which others wait. -/
theorem Request.pollClaim_front (coherent : w.engine.tracker.Coherent) {c : Claim}
    (front : (w.queue (.slot c.slot)).head? = some c.ticket) :
    (∀ c', (pollClaim w c).2 ≠ .waiting c') ∨ (w.slot c.slot).detached = true ∧ w.Busy := by
  have holds : w.engine.tracker.holds c.slot c.ticket = true := decide_eq_true front
  rw [pollClaim]
  cases detached : (w.slot c.slot).detached with
  | false =>
    have attached : (w.engine.tracker.slot c.slot).detached = false := detached
    simp [holds, attached]
  | true =>
    have gone : (w.engine.tracker.slot c.slot).detached = true := detached
    have left := shuffles_leave coherent front
    simp only [holds, gone, Bool.not_true, Bool.false_eq_true, if_false]
    generalize claimed : claim (w.leave c.slot) c.ticket c.rule c.mode = result
    obtain ⟨w', claim⟩ := result
    cases claim with
    | none => exact .inl (by simp)
    | some c' =>
      dsimp only
      rcases claim_front left.shifts.coherent claimed with first | ⟨found, waits⟩
      · exact .inl (by simp [first])
      · have attached : (w.slot c'.slot).detached = false :=
          coherent.attached ((Tracker.find?_leave _ c.slot c.rule).symm.trans found)
        have other : Lock.slot c'.slot ≠ .slot c.slot := fun same => by
          rw [Lock.slot.inj same, detached] at attached
          exact absurd attached (by simp)
        rw [w.queue_leave, Function.update_of_ne other] at waits
        exact .inr ⟨trivial, c'.slot, attached, waits⟩

/-- A claim that need not wait is answered. -/
theorem Request.Awaits.answered {r : Request} {wait : r.Wait} {next : r.Answer → Stance → World → Prop} {c : Claim}
    (coherent : w.engine.tracker.Coherent) (queued : w.engine.tracker.Queued c)
    (awaits : r.Awaits regime wait (.queued c) w next) (front : (w.queue (.slot c.slot)).head? = some c.ticket)
    (settles : ∀ c', (pollClaim w c).2 ≠ .waiting c') : ∃ w' a, r.poll wait w = (w', .answered a) := by
  have polled := claimPolled coherent queued
  cases r with
  | slot rule =>
    cases wait with
    | none => exact awaits.elim
    | some c₁ =>
      obtain ⟨same, -, mode, -⟩ := awaits
      obtain rfl := Stance.queued.inj same
      rw [poll]
      generalize pollClaim w c = result at polled settles
      cases polled with
      | waits => exact absurd rfl (settles _)
      | granted => exact ⟨_, _, rfl⟩
      | lapses shuffles queue existing => exact absurd (mode.symm.trans existing) (by simp)
  | existingSlot rule =>
    cases wait with
    | none => exact awaits.elim
    | some c₁ =>
      obtain ⟨same, -⟩ := awaits
      obtain rfl := Stance.queued.inj same
      rw [poll]
      generalize pollClaim w c = result at polled settles
      cases polled with
      | waits => exact absurd rfl (settles _)
      | granted => exact ⟨_, _, rfl⟩
      | lapses => exact ⟨_, _, rfl⟩
  | knownSlot id =>
    obtain ⟨⟨rule, same⟩ | ⟨free, -⟩, -⟩ := awaits
    · obtain rfl := Stance.queued.inj same
      have holds : w.engine.tracker.holds id wait = true := decide_eq_true front
      rw [poll, holds]
      repeat' split
      · exact ⟨_, _, rfl⟩
      · exact ⟨_, _, rfl⟩
      · exact ⟨_, _, rfl⟩
      · contradiction
    · exact absurd free (by simp)
  | deliver event =>
    obtain ⟨flight, limit⟩ := wait
    obtain ⟨rule, id, ticket, attempt, same, -⟩ := awaits
    exact absurd same (by simp)
  | refreshTurn => exact absurd awaits.1 (by simp)
  | fetch =>
    obtain ⟨ticket, same, -⟩ := awaits
    exact absurd same (by simp)
  | sleep span => exact awaits.elim
  | findOpen rules => exact absurd awaits.1 (by simp)
  | findAll => exact absurd awaits.1 (by simp)

/-! ### Threads -/

/-- What keeps a thread from going on: the sink or a repository, a claim that is queued, or others that are to refresh
the rules before it. -/
theorem Request.Awaits.hindered {r : Request} {wait : r.Wait} {next : r.Answer → Stance → World → Prop}
    (awaits : r.Awaits regime wait σ w next) : r.IsOutside ∨ (∃ w' a, r.poll wait w = (w', .answered a)) ∨
      (∃ c, σ = .queued c) ∨ ∃ ticket, σ = .awaiting ticket ∧
        ((w.queue .refresh).head? = some ticket → ∃ w' a, r.poll wait w = (w', .answered a)) := by
  cases r with
  | slot rule =>
    cases wait with
    | none => exact awaits.elim
    | some c => exact .inr (.inr (.inl ⟨c, awaits.1⟩))
  | existingSlot rule =>
    cases wait with
    | none => exact awaits.elim
    | some c => exact .inr (.inr (.inl ⟨c, awaits.1⟩))
  | knownSlot id =>
    obtain ⟨⟨rule, queued⟩ | ⟨-, -, gone⟩, -⟩ := awaits
    · exact .inr (.inr (.inl ⟨_, queued⟩))
    · have missing : w.engine.tracker.slots.contains id = false := by
        rw [Std.TreeMap.contains_eq_isSome_getElem?, gone]
        rfl
      have answered : (Request.knownSlot id).poll wait w = (w.moved, .answered false) := by
        rw [poll, missing]
        rfl
      exact .inr (.inl ⟨_, _, answered⟩)
  | refreshTurn =>
    exact .inr (.inr (.inr ⟨wait, awaits.1, fun front => ⟨w.moved, (), if_pos front⟩⟩))
  | deliver event => exact .inl trivial
  | fetch => exact .inl trivial
  | findOpen rules => exact .inl trivial
  | findAll => exact .inl trivial
  | sleep span => exact awaits.elim

section Threads

variable {t : Tasks T C} {th : Thread T C α}

/-- Whoever stands at the front of a queue does not wait for a lock, unless its slot is detached. -/
theorem Thread.Sound.front (sound : th.Sound regime tasks σ w) (coherent : w.engine.tracker.Coherent)
    (stands : σ.Stands w) {l : Lock} {ticket : Ticket} (spot : σ.spot? = some (l, ticket))
    (front : (w.queue l).head? = some ticket) :
    th.Awake t w ∨ (∃ id, l = .slot id ∧ (w.slot id).detached = true) ∧ w.Busy := by
  cases th with
  | ready p => exact .inl .begins
  | finished a =>
    obtain rfl : σ = .free := sound
    exact absurd spot (by simp [Stance.spot?])
  | joining children line next =>
    obtain ⟨rfl, -⟩ := sound
    exact absurd spot (by simp [Stance.spot?])
  | waiting r u wait next =>
    have awaits : r.Awaits regime wait σ w _ := sound
    rcases awaits.hindered with outside | ⟨w', a, answered⟩ | ⟨c, rfl⟩ | ⟨ticket', rfl, turn⟩
    · exact .inl (.outside outside)
    · exact .inl (.answered answered)
    · obtain ⟨rfl, rfl⟩ := Prod.mk.inj (Option.some.inj spot)
      rcases Request.pollClaim_front coherent front with settles | ⟨detached, busy⟩
      · obtain ⟨w', a, answered⟩ := awaits.answered coherent stands front settles
        exact .inl (.answered answered)
      · exact .inr ⟨⟨c.slot, rfl, detached⟩, busy⟩
    · obtain ⟨rfl, rfl⟩ := Prod.mk.inj (Option.some.inj spot)
      obtain ⟨w', a, answered⟩ := turn front
      exact .inl (.answered answered)

/-- An unfinished thread that waits for a lock stands in its queue, or it waits for a visit. -/
theorem Thread.Sound.awake_or_queues (sound : th.Sound regime tasks σ w) (stands : σ.Stands w)
    (unfinished : th.result? = none) :
    th.Awake t w ∨ (∃ l, w.queue l ≠ []) ∨
      ∃ children line next, th = .joining children line next ∧ t.results? children = none := by
  cases th with
  | ready p => exact .inl .begins
  | finished a => exact absurd unfinished (by simp [Thread.result?])
  | joining children line next =>
    cases all : t.results? children with
    | some results => exact .inl (.joins all)
    | none => exact .inr (.inr ⟨children, line, next, rfl, all⟩)
  | waiting r u wait next =>
    have awaits : r.Awaits regime wait σ w _ := sound
    rcases awaits.hindered with outside | ⟨w', a, answered⟩ | ⟨c, rfl⟩ | ⟨ticket, rfl, -⟩
    · exact .inl (.outside outside)
    · exact .inl (.answered answered)
    · obtain ⟨s, got, -, mem⟩ := stands.waits
      rw [← Tracker.slot_of_get got] at mem
      exact .inr (.inl ⟨.slot c.slot, List.ne_nil_of_mem mem⟩)
    · exact .inr (.inl ⟨.refresh, List.ne_nil_of_mem stands⟩)

end Threads

theorem unfinished_of_results? {children : List Strand} (waits : Visit.tasks.results? children = none) :
    ∃ (k : Nat) (v : Strand), children[k]? = some v ∧ v.result? = none := by
  induction children with
  | nil => exact absurd waits (by simp [Tasks.results?])
  | cons c rest ih =>
    cases first : c.result? with
    | none => exact ⟨0, c, rfl, first⟩
    | some events =>
      have later : Visit.tasks.results? rest = none := by
        have own : Visit.tasks.result? c = some events := first
        rw [Tasks.results?, List.mapM_cons, own] at waits
        cases all : rest.mapM Visit.tasks.result? with
        | none => exact all
        | some results =>
          rw [all] at waits
          exact absurd waits (by simp)
      obtain ⟨k, v, there, unfinished⟩ := ih later
      exact ⟨k + 1, v, there, unfinished⟩

/-! ### Scenes -/

section Scenes

variable {I : World → (RuleId → Option Work) → Prop} {s : Scene} {st : Place → Stance}
  {holders : RuleId → Option Work}

theorem Scene.Sound.lively_at (h : s.Sound regime I st holders) {p : Place} {P : Prop} (somewhere : st p ≠ .free)
    (awake : ∀ {T C α : Type} {tasks : T → Prop} (t : Tasks T C) (th : Thread T C α),
      th.Sound regime tasks (st p) s.world → th.Awake t s.world ∨ P) : s.Lively ∨ P := by
  obtain ⟨i, k⟩ := p
  cases here : s.calls[i]? with
  | none => exact absurd (h.vacant here k) somewhere
  | some c =>
    have call := h.calls here
    cases k with
    | none => exact (awake Visit.tasks c call.own).imp_left fun lively => ⟨i, c, here, .inl lively⟩
    | some k =>
      cases there : c.visit? k with
      | none => exact absurd (call.idle there) somewhere
      | some v =>
        exact (awake Tasks.none v (call.visits there)).imp_left fun lively => ⟨i, c, here, .inr ⟨k, v, there, lively⟩⟩

theorem Scene.Sound.lively_of_front (h : s.Sound regime I st holders) {l : Lock} (waited : s.world.queue l ≠ []) :
    s.Lively ∨ (∃ id, l = .slot id ∧ (s.world.slot id).detached = true) ∧ s.world.Busy := by
  obtain ⟨ticket, rest, queue⟩ := List.exists_cons_of_ne_nil waited
  have front : (s.world.queue l).head? = some ticket := by rw [queue, List.head?_cons]
  obtain ⟨p, spot⟩ := h.orderly.manned.owned (List.mem_of_mem_head? front)
  refine h.lively_at (p := p) (fun free => ?_) fun t th sound =>
    sound.front h.orderly.coherent (h.orderly.stands p) spot front
  rw [free] at spot
  exact absurd spot (by simp [Stance.spot?])

/-- As long as somebody queues for a lock, somebody does not wait for one. -/
theorem Scene.Sound.lively_of_queue (h : s.Sound regime I st holders) {l : Lock} (waited : s.world.queue l ≠ []) :
    s.Lively := by
  rcases h.lively_of_front waited with lively | ⟨-, id, attached, waited'⟩
  · exact lively
  · rcases h.lively_of_front waited' with lively | ⟨⟨id', same, detached⟩, -⟩
    · exact lively
    · rw [← Lock.slot.inj same, attached] at detached
      exact absurd detached (by simp)

theorem Scene.Sound.lively (h : s.Sound regime I st holders) (unfinished : ¬ s.AllFinished) : s.Lively := by
  obtain ⟨c, mem, going⟩ : ∃ c ∈ s.calls, Thread.result? c = none := by
    simpa using mt Scene.allFinished_of_results unfinished
  obtain ⟨i, here⟩ := List.getElem?_of_mem mem
  have call := h.calls here
  have stands := h.orderly.stands (i, none)
  rcases call.own.awake_or_queues (t := Visit.tasks) stands going with
    awake | ⟨l, waited⟩ | ⟨children, line, next, rfl, waits⟩
  · exact ⟨i, c, here, .inl awake⟩
  · exact h.lively_of_queue waited
  · obtain ⟨k, v, there, going⟩ := unfinished_of_results? waits
    have visit : CallThread.visit? (.joining children line next) k = some v := there
    rcases (call.visits visit).awake_or_queues (t := Tasks.none) (h.orderly.stands (i, some k)) going with
      awake | ⟨l, waited⟩ | ⟨none, -, -, -, waits⟩
    · exact ⟨i, _, here, .inr ⟨k, v, visit, awake⟩⟩
    · exact h.lively_of_queue waited
    · cases none with
      | nil => exact absurd waits (by simp [Tasks.results?])
      | cons child => exact child.elim

end Scenes

/-- However any number of calls are interleaved and whatever the sink and the source of rules answer: as long as a
call is unfinished, one call or visit does not wait for a slot nor for its turn to refresh. -/
theorem Scene.never_stuck {c : Config} {w : World} {s : Scene} (new : w.engine = .ofConfig c)
    (run : Scene.Run (fun _ => True) World.Elsewhere { world := w } s) (unfinished : ¬ s.AllFinished) :
    s.Lively := by
  have admitted : Scene.Run (Call.Admitted .mixed) World.Elsewhere { world := w } s :=
    run.admits fun {call} _ => by cases call <;> exact nofun
  have start : Scene.Sound .mixed (fun _ _ => True) { world := w } (fun _ => .free) fun _ => none :=
    Scene.sound_new new trivial
  obtain ⟨st, holders, sound⟩ := start.run ⟨fun _ _ => trivial, fun _ _ _ => trivial⟩
    ⟨id, fun _ _ => trivial⟩ admitted (by simp)
  exact sound.lively unfinished

/-- A visit that is inside a call to the sink holds the slot of the rule, and all kinds of calls queue for it. -/
theorem Scene.lively_while_delivering :
    let w : World := .watched { workers := 1 } { create := { default := { before := .ofSeconds 30 } } }
    let s := ((((Scene.make { world := w } .refresh).make (.sample "load" 95 default)).make
      (.sample "load" 50 default)).make (.announceEdit "high-load")).make .health
    w.engine = .ofConfig { workers := 1 } ∧ Scene.Run (fun _ => True) World.Elsewhere { world := w } s ∧
      (s.world.slot 0).queue.length = 4 ∧ ¬ s.AllFinished ∧ s.Lively := by
  intro w s
  have run : Scene.Run (fun _ => True) World.Elsewhere { world := w } s :=
    ((((Scene.run_make _ trivial).trans (Scene.run_make _ trivial)).trans (Scene.run_make _ trivial)).trans
      (Scene.run_make _ trivial)).trans (Scene.run_make _ trivial)
  have unfinished : ¬ s.AllFinished := by
    intro finished
    have going : ∃ c ∈ s.calls, Thread.result? c = none := ⟨s.calls[1], List.getElem_mem _, by decide +kernel⟩
    obtain ⟨c, mem, none⟩ := going
    obtain ⟨reply, rfl⟩ := finished c mem
    exact absurd none (by simp [Thread.result?])
  exact ⟨rfl, run, by decide +kernel, unfinished, Scene.never_stuck rfl run unfinished⟩

end ThresholdAlerts
