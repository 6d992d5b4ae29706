import ThresholdAlerts.Proofs.Scenes
/-! Tasks that lock slots. Any number of tasks ask for the slots of rules, change what they hold and let go of
it, in any order, on one tracker. Main statement: whatever the order, a rule has one slot with one holder at
most, and whoever gets it finds what the holder before left there. -/
namespace ThresholdAlerts

open Function

def Acquire.request (rule : RuleId) : Acquire → Request
  | .create => .slot rule
  | .existing => .existingSlot rule

/-- How far a task has come that locks slots. -/
inductive Locker where
  | idle
  | waiting (rule : RuleId) (mode : Acquire) (ticket : Ticket) (wait : (mode.request rule).Wait)
  | holding (rule : RuleId) (id : SlotId) (ticket : Ticket)

/-- What a task may do next. Whoever holds a slot may change anything in it but its rule. -/
inductive Locker.Act where
  | lock (rule : RuleId) (mode : Acquire)
  | poll
  | edit (state : FiringState) (outbox : Outbox)
  | retire
  | drop
  | release

/-- What happens to the slot of a rule: a task gets it, lets go of it, or removes it. -/
inductive Custody where
  | got (rule : RuleId) (mode : Acquire) (slot : Slot)
  | kept (rule : RuleId) (slot : Slot)
  | removed (rule : RuleId) (slot : Slot)
deriving DecidableEq

/-- Tasks on one tracker, with a log of what happened to slots, the newest first. -/
structure Lockers where
  world : World
  task : Nat → Locker := fun _ => .idle
  log : List Custody := []

namespace Lockers

/-- One task does something, if it can. -/
def act (s : Lockers) (i : Nat) (a : Locker.Act) : Lockers :=
  match s.task i, a with
  | .idle, .lock rule mode =>
    let (w, ticket) := s.world.takeTicket
    let (w, wait) := (mode.request rule).start ticket w
    { s with world := w, task := update s.task i (.waiting rule mode ticket wait) }
  | .waiting rule mode ticket wait, .poll =>
    match (mode.request rule).poll wait s.world with
    | (w, .waiting wait) => { s with world := w, task := update s.task i (.waiting rule mode ticket wait) }
    | (w, .answered a) =>
      match (mode.request rule).got? a with
      | some id =>
        { world := w, task := update s.task i (.holding rule id ticket), log := .got rule mode (w.slot id) :: s.log }
      | none => { s with world := w, task := update s.task i .idle }
  | .holding rule id _, .edit state outbox =>
    if state.ruleId = rule then
      { s with world := s.world.onTracker fun t => (t.setState id state).setOutbox id outbox }
    else s
  | .holding _ id _, .retire => { s with world := s.world.onTracker (·.retire id) }
  | .holding rule id _, .drop =>
    { world := s.world.leave id, task := update s.task i .idle, log := .kept rule (s.world.slot id) :: s.log }
  | .holding rule id _, .release =>
    let slot := s.world.slot id
    { world := s.world.release id
      task := update s.task i .idle
      log := (if (s.world.engine.tracker.release id).2 then .removed rule slot else .kept rule slot) :: s.log }
  | _, _ => s

/-- Tasks do one thing after another, in the order of a schedule. -/
def run (s : Lockers) (schedule : List (Nat × Locker.Act)) : Lockers :=
  schedule.foldl (fun s step => s.act step.1 step.2) s

end Lockers

/-- What the last one who had the slot of a rule left in it: a slot that was removed, or never made, counts as
an untouched one. -/
def Custody.left (rule : RuleId) : List Custody → FiringState × Outbox
  | [] => (.initial rule, [])
  | .got .. :: older => left rule older
  | .kept rule' slot :: older => if rule' = rule then (slot.state, slot.outbox) else left rule older
  | .removed rule' _ :: older => if rule' = rule then (.initial rule, []) else left rule older

/-- Whoever gets a slot finds what was left there, and a slot is removed only if nothing is left to do. -/
def Custody.Fair (older : List Custody) : Custody → Prop
  | .got rule mode slot => (slot.state, slot.outbox) = left rule older ∧ (mode = .create → slot.retired = false)
  | .kept .. => True
  | .removed _ slot => slot.retired = true ∧ slot.outbox = []

/-! ### The order among tasks -/

def Acquire.claim? {rule : RuleId} : (mode : Acquire) → (mode.request rule).Wait → Option Claim
  | .create, wait => wait
  | .existing, wait => wait

namespace Locker

def stance : Locker → Stance
  | .idle => .free
  | .waiting _ mode _ wait => (mode.claim? wait).elim .free .queued
  | .holding rule id ticket => .holding rule id ticket {}

/-- A task waits for what it asked for. -/
def Fits : Locker → Prop
  | .waiting rule mode ticket wait =>
    (∀ c ∈ mode.claim? wait, c.ticket = ticket ∧ c.rule = rule ∧ c.mode = mode) ∧
      (mode.claim? wait = none → mode = .existing)
  | _ => True

end Locker

namespace Lockers

variable {s : Lockers} {w w' : World} {i j : Nat} {rule : RuleId} {id : SlotId} {ticket : Ticket} {mode : Acquire}

/-- Every task is in its place, and what is in a slot that nobody holds was left there. -/
structure Sound (s : Lockers) : Prop where
  lined : Lined s.world fun i => (s.task i).stance
  fits : ∀ i, (s.task i).Fits
  left : ∀ rule, (∀ i id ticket, s.task i ≠ .holding rule id ticket) →
    s.world.contents rule = Custody.left rule s.log
  fair : ∀ newer h older, s.log = newer ++ h :: older → h.Fair older

theorem stance_update (s : Lockers) (i : Nat) (l : Locker) :
    (fun j => (update s.task i l j).stance) = update (fun j => (s.task j).stance) i l.stance := by
  funext j
  by_cases same : j = i
  · subst same
    rw [update_self, update_self]
  · rw [update_of_ne same, update_of_ne same]

theorem fits_update {l : Locker} (fits : ∀ j, (s.task j).Fits) (own : l.Fits) (j : Nat) :
    (update s.task i l j).Fits := by
  by_cases same : j = i
  · subst same
    rwa [update_self]
  · rw [update_of_ne same]
    exact fits j

theorem fair_cons {log : List Custody} {news : Custody}
    (fair : ∀ newer h older, log = newer ++ h :: older → h.Fair older) (own : news.Fair log)
    (newer : List Custody) (h : Custody) (older : List Custody) (split : news :: log = newer ++ h :: older) :
    h.Fair older := by
  cases newer with
  | nil =>
    obtain ⟨rfl, rfl⟩ := List.cons.inj split
    exact own
  | cons _ newer => exact fair newer h older (List.cons.inj split).2

theorem Sound.shuffled (sound : s.Sound) {l : Locker} (shuffles : s.world.Shuffles ticket w')
    (strange : ∀ j ≠ i, (s.task j).stance.ticket? ≠ some ticket) (stands : l.stance.Stands w') (fits : l.Fits)
    (own : ∀ {t}, l.stance.ticket? = some t → t = ticket ∧ t < w'.moves)
    (before : ∀ rule id ticket, s.task i ≠ .holding rule id ticket) :
    Sound { s with world := w', task := update s.task i l } := by
  refine ⟨?_, fits_update sound.fits fits, fun rule nobody => ?_, sound.fair⟩
  · rw [stance_update]
    refine sound.lined.moved (.of_rules shuffles.shifts.respects shuffles.rules) strange shuffles.aside.moves
      shuffles.shifts.coherent stands fun {t} here => ?_
    obtain ⟨rfl, early⟩ := own here
    exact ⟨early, strange⟩
  · refine (World.contents_of_alike (shuffles.shifts.alike rule)).trans (sound.left rule fun j id ticket there => ?_)
    have ne : j ≠ i := fun same => before _ _ _ (same ▸ there)
    exact nobody j id ticket ((update_of_ne ne _ _).trans there)

/-- The holder of a slot does something in it, and stays or goes. -/
theorem Sound.worked (sound : s.Sound) {l : Locker} {log : List Custody} (holds : s.task i = .holding rule id ticket)
    (respects : s.world.Respects ticket w') (coherent : w'.engine.tracker.Coherent)
    (moves : w'.moves = s.world.moves)
    (stays : l = .holding rule id ticket ∧ l.stance.Stands w' ∨ l = .idle ∧ w'.contents rule = Custody.left rule log)
    (others : ∀ rule' ≠ rule, w'.contents rule' = s.world.contents rule')
    (logged : ∀ rule' ≠ rule, Custody.left rule' log = Custody.left rule' s.log)
    (fair : ∀ newer h older, log = newer ++ h :: older → h.Fair older) :
    Sound { world := w', task := update s.task i l, log } := by
  have own : (s.task i).stance.ticket? = some ticket := by rw [holds]; rfl
  have strange : ∀ j ≠ i, (s.task j).stance.ticket? ≠ some ticket :=
    fun j ne there => ne (sound.lined.apart there own)
  refine ⟨?_, fits_update sound.fits ?_, fun rule' nobody => ?_, fair⟩
  · rw [stance_update]
    refine sound.lined.moved respects strange (Nat.le_of_eq moves.symm) coherent ?_ fun {t} here => ?_
    · rcases stays with ⟨rfl, stands⟩ | ⟨rfl, -⟩
      · exact stands
      · exact trivial
    · rcases stays with ⟨rfl, -⟩ | ⟨rfl, -⟩
      · obtain rfl := Option.some.inj here
        exact ⟨Nat.lt_of_lt_of_eq (sound.lined.early own) moves.symm, strange⟩
      · exact absurd here (by simp [Locker.stance, Stance.ticket?])
  · rcases stays with ⟨rfl, -⟩ | ⟨rfl, -⟩ <;> exact trivial
  · by_cases same : rule' = rule
    · subst same
      rcases stays with ⟨rfl, -⟩ | ⟨rfl, left⟩
      · exact absurd (update_self i _ _) (nobody i id ticket)
      · exact left
    · refine (others rule' same).trans
        ((sound.left rule' fun j id' ticket' there => ?_).trans (logged rule' same).symm)
      have ne : j ≠ i := fun eq => by
        rw [eq, holds] at there
        exact same (Locker.holding.inj there).1.symm
      exact nobody j id' ticket' ((update_of_ne ne _ _).trans there)

/-! ### One lemma for each thing a task does -/

/-- A task that waits for a slot stands in its queue, or for nothing if there is none. -/
theorem waiting_stands {wait : (mode.request rule).Wait}
    (claimed : ∀ c ∈ mode.claim? wait, c.ticket = ticket ∧ c.rule = rule ∧ c.mode = mode ∧ w.engine.tracker.Queued c)
    (absent : mode.claim? wait = none → mode = .existing) (early : ticket < w.moves) :
    let l : Locker := .waiting rule mode ticket wait
    l.stance.Stands w ∧ l.Fits ∧ ∀ {t}, l.stance.ticket? = some t → t = ticket ∧ t < w.moves := by
  intro l
  refine ⟨?_, ⟨fun c mem => ?_, absent⟩, fun {t} here => ?_⟩
  · cases here : mode.claim? wait with
    | none => simp only [l, Locker.stance, here, Option.elim_none, Stance.Stands]
    | some c =>
      simp only [l, Locker.stance, here, Option.elim_some]
      exact (claimed c here).2.2.2
  · obtain ⟨ticket, rule, mode, -⟩ := claimed c mem
    exact ⟨ticket, rule, mode⟩
  · cases claim : mode.claim? wait with
    | none => simp [l, Locker.stance, claim, Stance.ticket?] at here
    | some c =>
      simp only [l, Locker.stance, claim, Option.elim_some, Stance.ticket?, Option.some.injEq] at here
      obtain rfl := here
      exact ⟨(claimed c claim).1, (claimed c claim).1 ▸ early⟩

theorem Sound.lock (sound : s.Sound) (idle : s.task i = .idle) (rule : RuleId) (mode : Acquire) :
    (s.act i (.lock rule mode)).Sound := by
  have spec := Tracker.request_spec sound.lined.coherent s.world.moves rule mode
  have shuffles : s.world.Shuffles s.world.moves (Request.claim s.world.takeTicket.1 s.world.moves rule mode).1 :=
    ⟨⟨rfl, rfl, .refl _, rfl, rfl, Nat.le_succ _, rfl, rfl, rfl⟩, spec.shifts, rfl⟩
  have act : s.act i (.lock rule mode) =
      let started := (mode.request rule).start s.world.moves s.world.takeTicket.1
      { s with world := started.1, task := update s.task i (.waiting rule mode s.world.moves started.2) } := by
    simp only [Lockers.act, idle]
    rfl
  have begun : ((mode.request rule).start s.world.moves s.world.takeTicket.1).1 =
      (Request.claim s.world.takeTicket.1 s.world.moves rule mode).1 := by cases mode <;> rfl
  have made : mode.claim? ((mode.request rule).start s.world.moves s.world.takeTicket.1).2 =
      (s.world.engine.tracker.request s.world.moves rule mode).2 := by cases mode <;> rfl
  rw [act]
  generalize (mode.request rule).start s.world.moves s.world.takeTicket.1 = started at begun made
  obtain ⟨w, wait⟩ := started
  obtain rfl : w = _ := begun
  have queued : ∀ c ∈ mode.claim? wait, c.ticket = s.world.moves ∧ c.rule = rule ∧ c.mode = mode ∧
      (Request.claim s.world.takeTicket.1 s.world.moves rule mode).1.engine.tracker.Queued c := fun c mem => by
    obtain ⟨ticket, rule, mode, queued, -⟩ := spec.claimed (made.symm.trans mem)
    exact ⟨ticket, rule, mode, queued⟩
  obtain ⟨stands, fits, own⟩ :=
    waiting_stands queued (fun none => (spec.absent (made.symm.trans none)).1) (Nat.lt_succ_self _)
  exact sound.shuffled shuffles (fun j _ there => Nat.lt_irrefl _ (sound.lined.early there)) stands fits own
    (by simp [idle])

/-- A poll of the claim of a task, whether the slot is to be made or not. -/
theorem poll_claim {wait : (mode.request rule).Wait} {c : Claim} (claimed : mode.claim? wait = some c)
    {result : World × Request.Grant} (polled : Request.pollClaim w c = result)
    (lapses : result.2 = .absent → mode = .existing) :
    (∃ c' wait', result.2 = .waiting c' ∧ mode.claim? wait' = some c' ∧
        (mode.request rule).poll wait w = (result.1, .waiting wait')) ∨
      (∃ id a, result.2 = .granted id ∧ (mode.request rule).got? a = some id ∧
        (mode.request rule).poll wait w = (result.1.moved, .answered a)) ∨
      ∃ a, result.2 = .absent ∧ (mode.request rule).got? a = none ∧
        (mode.request rule).poll wait w = (result.1.moved, .answered a) := by
  obtain ⟨w', grant⟩ := result
  cases mode with
  | create =>
    obtain rfl : wait = some c := claimed
    have poll : (Acquire.create.request rule).poll (some c) w = _ := Request.poll.eq_2 ..
    cases grant with
    | waiting c' => exact .inl ⟨c', some c', rfl, rfl, by rw [poll, polled]; rfl⟩
    | granted id => exact .inr (.inl ⟨id, id, rfl, rfl, by rw [poll, polled]; rfl⟩)
    | absent => exact absurd (lapses rfl) (by simp)
  | existing =>
    obtain rfl : wait = some c := claimed
    have poll : (Acquire.existing.request rule).poll (some c) w = _ := Request.poll.eq_4 ..
    cases grant with
    | waiting c' => exact .inl ⟨c', some c', rfl, rfl, by rw [poll, polled]; rfl⟩
    | granted id => exact .inr (.inl ⟨id, some id, rfl, rfl, by rw [poll, polled]; rfl⟩)
    | absent => exact .inr (.inr ⟨none, rfl, rfl, by rw [poll, polled]; rfl⟩)

/-- A task that gets a slot finds what was left there. -/
theorem Sound.granted (sound : s.Sound) (own : (s.task i).stance.ticket? = some ticket)
    (waits : ∀ rule id ticket, s.task i ≠ .holding rule id ticket) {c : Claim}
    (shuffles : s.world.Shuffles ticket w) (found : w.engine.tracker.find? rule = some c.slot)
    (head : (w.slot c.slot).queue.head? = some ticket) :
    let w' := (w.onTracker (·.take c)).moved
    Sound { world := w', task := update s.task i (.holding rule c.slot ticket),
            log := .got rule c.mode (w'.slot c.slot) :: s.log } := by
  intro w'
  have coherent := shuffles.shifts.coherent
  have there := coherent.get found
  have rewrites := w.engine.tracker.rewrites_take c
  have found' : w'.engine.tracker.find? rule = some c.slot := (rewrites.find? rule).trans found
  have head' : (w'.slot c.slot).queue.head? = some ticket := (congrArg List.head? (rewrites.queue there)).trans head
  have strange : ∀ j ≠ i, (s.task j).stance.ticket? ≠ some ticket := fun j ne other => ne (sound.lined.apart other own)
  have moves : s.world.moves ≤ w'.moves := Nat.le_succ_of_le shuffles.aside.moves
  have lined : Lined w' (update (fun j => (s.task j).stance) i (.holding rule c.slot ticket {})) := by
    refine sound.lined.moved (.of_rules (shuffles.shifts.respects.trans (rewrites.respects head)) shuffles.rules)
      strange moves (rewrites.coherent coherent there) ⟨found', head'⟩ fun {t} here => ?_
    obtain rfl := Option.some.inj here
    exact ⟨Nat.lt_of_lt_of_le (sound.lined.early own) moves, strange⟩
  have nobody : ∀ j id' ticket', s.task j ≠ .holding rule id' ticket' := fun j id' ticket' holds => by
    have ne : j ≠ i := fun same => waits _ _ _ (same ▸ holds)
    have stance : update (fun j => (s.task j).stance) i (.holding rule c.slot ticket {}) j =
        .holding rule id' ticket' {} := by
      rw [update_of_ne ne, holds]
      rfl
    exact ne (lined.only found' head' (by rw [update_self]; rfl) stance)
  have contents (rule' : RuleId) : w'.contents rule' = s.world.contents rule' :=
    (World.contents_take coherent found rule').trans (World.contents_of_alike (shuffles.shifts.alike rule'))
  refine ⟨?_, fits_update sound.fits trivial, fun rule' idle => ?_, fair_cons sound.fair ⟨?_, fun create => ?_⟩⟩
  · rw [stance_update]
    exact lined
  · refine (contents rule').trans (sound.left rule' fun j id ticket other => ?_)
    have ne : j ≠ i := fun same => waits _ _ _ (same ▸ other)
    exact idle j id ticket ((update_of_ne ne _ _).trans other)
  · have here : w'.contents rule = Custody.left rule s.log := (contents rule).trans (sound.left rule nobody)
    rwa [World.contents, Tracker.slotFor_of_find found'] at here
  · exact kept_of_take create

theorem Sound.poll (sound : s.Sound) {wait : (mode.request rule).Wait}
    (waits : s.task i = .waiting rule mode ticket wait) : (s.act i .poll).Sound := by
  obtain ⟨fits, absent⟩ : (∀ c ∈ mode.claim? wait, c.ticket = ticket ∧ c.rule = rule ∧ c.mode = mode) ∧
      (mode.claim? wait = none → mode = .existing) := by
    have fits := sound.fits i
    rwa [waits] at fits
  have before : ∀ rule id ticket, s.task i ≠ .holding rule id ticket := by simp [waits]
  simp only [Lockers.act, waits]
  cases claimed : mode.claim? wait with
  | none =>
    obtain rfl := absent claimed
    obtain rfl : wait = none := claimed
    have moved := (World.Shuffles.refl sound.lined.coherent s.world.moves).moved
    have late : ∀ j ≠ i, (s.task j).stance.ticket? ≠ some s.world.moves :=
      fun j _ there => Nat.lt_irrefl _ (sound.lined.early there)
    exact sound.shuffled moved late (l := .idle) trivial trivial
      (fun here => absurd here (by simp [Locker.stance, Stance.ticket?])) before
  | some c =>
    obtain ⟨rfl, rfl, rfl⟩ := fits c claimed
    have own : (s.task i).stance.ticket? = some c.ticket := by
      rw [waits, Locker.stance, claimed]
      rfl
    have queued : s.world.engine.tracker.Queued c := by
      have stands := sound.lined.stands i
      rwa [waits, Locker.stance, claimed] at stands
    have strange : ∀ j ≠ i, (s.task j).stance.ticket? ≠ some c.ticket :=
      fun j ne there => ne (sound.lined.apart there own)
    have early := sound.lined.early own
    have polled := Request.claimPolled sound.lined.coherent queued
    generalize result : Request.pollClaim s.world c = outcome at polled
    have poll := poll_claim claimed result
    cases polled with
    | @waits w₁ c' shuffles same queued queue =>
      obtain ⟨ticket, rule, mode⟩ := same
      obtain ⟨c₁, wait', here, claim, poll⟩ := (poll (by simp)).resolve_right (by simp)
      obtain rfl := Request.Grant.waiting.inj here
      rw [poll]
      have claims : ∀ c₂ ∈ c.mode.claim? wait', c₂.ticket = c.ticket ∧ c₂.rule = c.rule ∧ c₂.mode = c.mode ∧
          w₁.engine.tracker.Queued c₂ := fun c₂ mem => by
        obtain rfl := Option.some.inj (claim.symm.trans mem)
        exact ⟨ticket, rule, mode, queued⟩
      obtain ⟨stands, fits, own'⟩ := waiting_stands claims (fun none => absurd (claim.symm.trans none) (by simp))
        (Nat.lt_of_lt_of_le early shuffles.aside.moves)
      exact sound.shuffled shuffles strange stands fits own' before
    | @granted w₁ c' shuffles same queued queue found head =>
      obtain ⟨id, a, here, got, poll⟩ := ((poll (by simp)).resolve_left (by simp)).resolve_right (by simp)
      obtain rfl := Request.Grant.granted.inj here
      simp only [poll, got]
      have granted := sound.granted own before shuffles found head
      rw [same.2.2] at granted
      exact granted
    | @lapses w₁ shuffles queue existing =>
      obtain ⟨a, here, got, poll⟩ := ((poll fun _ => existing).resolve_left (by simp)).resolve_left (by simp)
      simp only [poll, got]
      exact sound.shuffled shuffles.moved strange (l := .idle) trivial trivial
        (fun here => absurd here (by simp [Locker.stance, Stance.ticket?])) before

/-- Whoever holds a slot is alone with it. -/
theorem Sound.holds (sound : s.Sound) (holds : s.task i = .holding rule id ticket) :
    s.world.engine.tracker.find? rule = some id ∧ (s.world.slot id).queue.head? = some ticket := by
  have stands := sound.lined.stands i
  rwa [holds] at stands

theorem Sound.alone (sound : s.Sound) {id' : SlotId} {ticket' : Ticket} (holds : s.task i = .holding rule id ticket)
    (other : s.task j = .holding rule id' ticket') : j = i := by
  obtain ⟨found, head⟩ := sound.holds holds
  have rival : (s.task j).stance = .holding rule id' ticket' {} := by rw [other]; rfl
  exact sound.lined.only found head (by rw [holds]; rfl) rival

theorem Sound.rewritten (sound : s.Sound) (holds : s.task i = .holding rule id ticket) (f : Tracker → Tracker)
    (rewrites : s.world.engine.tracker.Rewrites id (f s.world.engine.tracker)) :
    Sound { s with world := s.world.onTracker f } := by
  obtain ⟨found, head⟩ := sound.holds holds
  have coherent := sound.lined.coherent
  have there := coherent.get found
  have same : update s.task i (.holding rule id ticket) = s.task := by rw [← holds, update_eq_self]
  have worked : Sound ⟨s.world.onTracker f, update s.task i (.holding rule id ticket), s.log⟩ :=
    sound.worked holds (.of_rules (rewrites.respects head) rfl) (rewrites.coherent coherent there) rfl
      (.inl ⟨rfl, (rewrites.find? rule).trans found, (congrArg List.head? (rewrites.queue there)).trans head⟩)
      (fun rule' ne => by
        have slotFor := rewrites.slotFor coherent found ne
        exact Prod.ext (congrArg Slot.state slotFor) (congrArg Slot.outbox slotFor))
      (fun _ _ => rfl) sound.fair
  rwa [same] at worked

theorem Sound.drop (sound : s.Sound) (holds : s.task i = .holding rule id ticket) : (s.act i .drop).Sound := by
  obtain ⟨found, head⟩ := sound.holds holds
  have left := shuffles_leave sound.lined.coherent head
  have contents := World.contents_leave sound.lined.coherent id
  simp only [Lockers.act, holds]
  refine sound.worked holds (.of_rules left.shifts.respects rfl) left.shifts.coherent rfl (.inr ⟨rfl, ?_⟩)
    (fun rule' _ => contents rule') (fun rule' ne => ?_) (fair_cons sound.fair trivial)
  · rw [contents, World.contents_of_find found, Custody.left, if_pos rfl]
  · rw [Custody.left, if_neg (Ne.symm ne)]

theorem Sound.release (sound : s.Sound) (holds : s.task i = .holding rule id ticket) : (s.act i .release).Sound := by
  obtain ⟨found, head⟩ := sound.holds holds
  have coherent := sound.lined.coherent
  by_cases spent : (s.world.slot id).retired = true ∧ (s.world.slot id).outbox = []
  · have released : s.world.engine.tracker.release id = _ := Tracker.release_of_spent spent.1 spent.2
    simp only [Lockers.act, holds, released, if_true]
    have head' : ((s.world.engine.tracker.detach id).slot id).queue.head? = some ticket := by
      rw [Tracker.slot_detach]
      exact head
    have left := Tracker.shifts_leave (Tracker.coherent_detach coherent found) head'
    have world := World.tracker_release_of_spent spent.1 spent.2
    have respects := (Tracker.respects_detach coherent found head).trans left.respects
    refine sound.worked holds (.of_rules (world ▸ respects) rfl) (world ▸ left.coherent) rfl (.inr ⟨rfl, ?_⟩)
      (fun rule' ne => ?_) (fun rule' ne => ?_) (fair_cons sound.fair spent)
    · rw [Custody.left, if_pos rfl, World.contents_of_spent coherent found spent.1 spent.2]
    · have alike := left.alike rule'
      rw [Tracker.slotFor_detach_other coherent found ne, ← world] at alike
      exact World.contents_of_alike alike
    · rw [Custody.left, if_neg (Ne.symm ne)]
  · have kept : (s.world.slot id).retired = false ∨ (s.world.slot id).outbox ≠ [] := by
      cases retired : (s.world.slot id).retired with
      | false => exact .inl rfl
      | true => exact .inr fun empty => spent ⟨retired, empty⟩
    have released : s.world.engine.tracker.release id = _ := Tracker.release_of_kept kept
    have dropped := sound.drop holds
    simp only [Lockers.act, holds, released, World.release_of_kept kept] at dropped ⊢
    exact dropped

theorem Sound.act (sound : s.Sound) (i : Nat) (a : Locker.Act) : (s.act i a).Sound := by
  cases here : s.task i with
  | idle =>
    cases a with
    | lock rule mode => exact sound.lock here rule mode
    | _ => simpa only [Lockers.act, here] using sound
  | waiting rule mode ticket wait =>
    cases a with
    | poll => exact sound.poll here
    | _ => simpa only [Lockers.act, here] using sound
  | holding rule id ticket =>
    have named : (s.world.slot id).state.ruleId = rule := sound.lined.coherent.stateRuleId (sound.holds here).1
    cases a with
    | edit state outbox =>
      simp only [Lockers.act, here]
      split
      · next same =>
        have edited : s.world.engine.tracker.Rewrites id (s.world.engine.tracker.setState id state) :=
          Tracker.rewrites_setState (same.trans named.symm)
        exact sound.rewritten here _ (edited.trans (Tracker.rewrites_setOutbox _ id outbox))
      · exact sound
    | retire =>
      simp only [Lockers.act, here]
      exact sound.rewritten here (·.retire id) (Tracker.rewrites_retire _ id)
    | drop => exact sound.drop here
    | release => exact sound.release here
    | _ => simpa only [Lockers.act, here] using sound

theorem Sound.run (sound : s.Sound) (schedule : List (Nat × Locker.Act)) : (s.run schedule).Sound := by
  induction schedule generalizing s with
  | nil => exact sound
  | cons step rest ih => exact ih (sound.act step.1 step.2)

theorem sound_new (new : w.engine.tracker = {}) : Sound { world := w } := by
  refine ⟨⟨new ▸ Tracker.coherent_empty, fun _ => trivial,
    fun here => absurd here (by simp [Locker.stance, Stance.ticket?]),
    fun here => absurd here (by simp [Locker.stance, Stance.ticket?])⟩, fun _ => trivial, fun rule _ => ?_, by simp⟩
  rw [World.contents, new]
  rfl

/-- However tasks take turns on a new tracker: a rule has one holder at most; what it holds is the slot of its
rule; a slot is the one of its rule exactly while it is not detached; and whoever gets a slot finds what the
last holder left in it, or an untouched one if that was removed, which it is only when nothing is left to do. -/
theorem serialized (new : w.engine.tracker = {}) (schedule : List (Nat × Locker.Act)) :
    let s := run { world := w } schedule
    let t := s.world.engine.tracker
    (∀ i j rule id id' ticket ticket', s.task i = .holding rule id ticket → s.task j = .holding rule id' ticket' →
      i = j) ∧
    (∀ i rule id ticket, s.task i = .holding rule id ticket →
      t.find? rule = some id ∧ (t.slot id).ruleId = rule ∧ (t.slot id).detached = false) ∧
    (∀ rule id, t.find? rule = some id → ∃ slot, t.slots[id]? = some slot ∧ slot.ruleId = rule) ∧
    (∀ id slot, t.slots[id]? = some slot → (t.find? slot.ruleId = some id ↔ slot.detached = false)) ∧
    ∀ newer h older, s.log = newer ++ h :: older → h.Fair older := by
  intro s t
  have sound : s.Sound := (sound_new new).run schedule
  have coherent : t.Coherent := sound.lined.coherent
  refine ⟨fun i j rule id id' ticket ticket' holds other => (sound.alone holds other).symm,
    fun i rule id ticket holds => ?_, fun rule id found => ⟨t.slot id, coherent.get found, coherent.ruleId found⟩,
    fun id slot got => ⟨fun found => ?_, coherent.kept got⟩, sound.fair⟩
  · have found := (sound.holds holds).1
    exact ⟨found, coherent.ruleId found, coherent.attached found⟩
  · rw [← Tracker.slot_of_get got]
    exact coherent.attached found

/-- The first task counts a breach and removes the slot while the second one waits for it. -/
def rivalry : List (Nat × Locker.Act) :=
  [(0, .lock "load" .create), (1, .lock "load" .create), (0, .poll), (1, .poll),
    (0, .edit { FiringState.initial "load" with phase := .pending 1 } []), (0, .retire), (0, .release), (1, .poll)]

/-- The second one gets an untouched slot, and is alone with it. -/
theorem untouched_after_removal :
    let s := run { world := .watched { workers := 1 } {} } rivalry
    ∃ slot, s.log.head? = some (.got "load" .create slot) ∧ (slot.state, slot.outbox) = (.initial "load", []) ∧
      ∀ j id ticket, s.task j = .holding "load" id ticket → 1 = j := by
  intro s
  obtain ⟨alone, -, -, -, fair⟩ := serialized (w := .watched { workers := 1 } {}) rfl rivalry
  have log : s.log = [.got "load" .create { Slot.initial "load" with queue := [1] },
      .removed "load" { Slot.initial "load" with
        state := { FiringState.initial "load" with phase := .pending 1 }, retired := true, queue := [0, 1] },
      .got "load" .create { Slot.initial "load" with queue := [0, 1] }] := by decide +kernel
  have holds : s.task 1 = .holding "load" 1 1 := by rfl
  have got := (fair [] _ _ log).1
  rw [Custody.left, if_pos rfl] at got
  exact ⟨_, by rw [log]; rfl, got, fun j id ticket other => alone _ _ _ _ _ _ _ holds other⟩

end Lockers

end ThresholdAlerts
