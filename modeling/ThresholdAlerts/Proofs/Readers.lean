import ThresholdAlerts.Proofs.Freshness
/-! Several at one store of rules. Its uses are interleaved at the turn to refresh and at the fetch, and no
fetch fails. Main statement: a read that begins after an invalidation gets rules of a fetch that began since,
unless it begins while the first such fetch is under way; and whoever asks again gets no older rules. -/
namespace ThresholdAlerts

open Prog Relation

/-- A use of the store of rules, and how far it has come. -/
structure Access where
  use : Use
  thread : CallThread use.Answer

/-- The rules that a use has answered with. -/
def Access.result? : Access → Option RuleSnapshot
  | ⟨.read, .finished snapshot⟩ => some snapshot
  | ⟨.refresh, .finished (.ok snapshot)⟩ => some snapshot
  | _ => none

def Access.Fetches : Access → Prop
  | ⟨_, .waiting .fetch ..⟩ => True
  | _ => False

def Access.ticket? : Access → Option Ticket
  | ⟨_, .waiting .refreshTurn t ..⟩ => some t
  | _ => none

/-- Whether the store itself is used, and not a call of the engine. -/
def Use.IsDirect : Use → Prop
  | .call _ => False
  | _ => True

/-- A world with the uses that are made of its store of rules. -/
structure Sharing where
  world : World
  accesses : List Access := []

namespace Sharing

/-- A use begins, and runs to its first wait. -/
def make (s : Sharing) (u : Use) : Sharing :=
  let begun := u.program.stretch Visit.tasks s.world
  { world := begun.1, accesses := s.accesses ++ [⟨u, begun.2⟩] }

/-- A use begins or moves on, or the world changes from outside. No fetch fails. -/
inductive Step : Sharing → Sharing → Prop
  | make {s} (u : Use) (direct : u.IsDirect) : Step s (s.make u)
  | move {s i a w thread} (member : s.accesses[i]? = some a) (move : CallThread.Move s.world a.thread w thread)
      (served : w.engine.rules.failures = 0) :
      Step s { world := w, accesses := s.accesses.set i ⟨a.use, thread⟩ }
  | outside {s w} (change : s.world.BesideFetches w) : Step s { s with world := w }

def Run : Sharing → Sharing → Prop :=
  ReflTransGen Step

/-- Somebody waits for the source of rules. -/
def Fetching (s : Sharing) : Prop :=
  ∃ a ∈ s.accesses, a.Fetches

/-- The store is new, or was just invalidated. -/
inductive Marked (w₀ : World) : Sharing → Prop
  | new : Marked w₀ { world := w₀ }
  | invalidated {s} (run : Run { world := w₀ } s) : Marked w₀ (s.make .invalidate)

end Sharing

/-! ### What a use does from one wait to the next -/

def settle (answer : Except SourceError (List Rule)) : Prog T (Except SourceError RuleSnapshot) :=
  match answer with
  | .ok rules => do
    let snapshot ← step (·.loadRules rules)
    return .ok snapshot
  | .error e => do
    modify (·.onRules (·.failed e))
    return .error e

namespace Use

/-- What is left of a use when the source has answered. -/
def fetched : (u : Use) → Except SourceError (List Rule) → Prog Visit u.Answer
  | .read, answer => do
    let _ ← settle answer
    modify (·.endTurn)
    Prog.read (·.engine.rules.snapshot)
  | .refresh, answer => do
    let result ← settle answer
    modify (·.endTurn)
    return result
  | u, _ => u.program

def inTurn : (u : Use) → Prog Visit u.Answer
  | .read => do
    if ← Prog.read (·.engine.rules.invalidated) then
      let _ ← fetchRules
    modify (·.endTurn)
    Prog.read (·.engine.rules.snapshot)
  | .refresh => do
    let result ← fetchRules
    modify (·.endTurn)
    return result
  | u => u.program

def Loads : Use → Prop
  | .read | .refresh => True
  | _ => False

end Use

namespace World

def lineUp (w : World) : World :=
  w.takeTicket.1.onRules fun s => { s with turns := s.turns ++ [w.moves] }

def ask (w : World) : World :=
  (Request.fetch.start w.moved.moves (w.moved.onRules (·.beginFetch)).takeTicket.1).1

/-- A call whose fetch has succeeded. -/
def load (w : World) (rules : List Rule) : World :=
  (w.moved.loadRules rules).1.endTurn

theorem generation_load (w : World) (rules : List Rule) :
    (w.load rules).engine.rules.snapshot.generation = w.engine.rules.snapshot.generation + 1 :=
  RuleSnapshot.generation_foldl ..

/-- Fetches and generations are counted up, and the mark is taken off only when a fetch begins. -/
structure Later (w w' : World) : Prop where
  fetches : w.source.fetches ≤ w'.source.fetches
  generation : w.engine.rules.snapshot.generation ≤ w'.engine.rules.snapshot.generation
  marked : w.engine.rules.invalidated = true →
    w'.engine.rules.invalidated = true ∨ w.source.fetches < w'.source.fetches

theorem later_of_same {w w' : World} (invalidated : w'.engine.rules.invalidated = w.engine.rules.invalidated)
    (snapshot : w'.engine.rules.snapshot = w.engine.rules.snapshot)
    (fetches : w'.source.fetches = w.source.fetches) : w.Later w' :=
  ⟨Nat.le_of_eq fetches.symm, Nat.le_of_eq (congrArg _ snapshot.symm),
    fun marked => .inl (invalidated.trans marked)⟩

end World

namespace Access

def queued (u : Use) (t : Ticket) : Access :=
  ⟨u, .waiting .refreshTurn t t fun _ => u.inTurn⟩

def fetching (u : Use) (t : Ticket) (f : Fetching) : Access :=
  ⟨u, .waiting .fetch t f u.fetched⟩

@[simp] theorem result_queued (u : Use) (t : Ticket) : (queued u t).result? = none := by
  cases u <;> rfl

@[simp] theorem result_fetching (u : Use) (t : Ticket) (f : Fetching) : (fetching u t f).result? = none := by
  cases u <;> rfl

inductive Shaped : Access → Prop
  | queued {u} (loads : u.Loads) (t : Ticket) : Shaped (queued u t)
  | fetching {u} (loads : u.Loads) (t : Ticket) (f : Fetching) : Shaped (fetching u t f)
  | ended {u} (a : u.Answer) : Shaped ⟨u, .finished a⟩

/-- How a use begins. -/
inductive Begins (w : World) : Use → World → Access → Prop
  | invalidates : Begins w .invalidate (w.onRules (·.invalidate)) ⟨.invalidate, .finished ()⟩
  | serves (valid : w.engine.rules.invalidated = false) :
      Begins w .read w ⟨.read, .finished w.engine.rules.snapshot⟩
  | lines {u} (loads : u.Loads) (asked : u = .read → w.engine.rules.invalidated = true) :
      Begins w u w.lineUp (queued u w.moves)

/-- What a move of a use does, if no fetch fails. -/
inductive Goes (w : World) : Access → World → Access → Prop
  | waits {u t} (later : w.engine.rules.turns.head? ≠ some t) : Goes w (queued u t) w (queued u t)
  | spared {t} (turn : w.engine.rules.turns.head? = some t) (valid : w.engine.rules.invalidated = false) :
      Goes w (queued .read t) w.moved.endTurn ⟨.read, .finished w.engine.rules.snapshot⟩
  | asks {u t t' f} (turn : w.engine.rules.turns.head? = some t) (loads : u.Loads) :
      Goes w (queued u t) w.ask (fetching u t' f)
  | reads {u t f} (f' : Fetching) (loads : u.Loads) : Goes w (fetching u t f) w (fetching u t f')
  | loads {u t f} (rules : List Rule) (a : u.Answer)
      (gives : (Access.mk u (.finished a)).result? = some (w.load rules).engine.rules.snapshot) :
      Goes w (fetching u t f) (w.load rules) ⟨u, .finished a⟩

variable {w w' : World} {u : Use}

theorem stretch_read (valid : w.engine.rules.invalidated = false) :
    Use.read.program.stretch Visit.tasks w = (w, .finished w.engine.rules.snapshot) := by
  change Prog.stretch Visit.tasks (if w.engine.rules.invalidated = true then _ else _) w = _
  rw [valid]
  rfl

theorem stretch_read_marked (marked : w.engine.rules.invalidated = true) :
    Use.read.program.stretch Visit.tasks w =
      (w.lineUp, .waiting .refreshTurn w.moves w.moves fun _ => Use.read.inTurn) := by
  change Prog.stretch Visit.tasks (if w.engine.rules.invalidated = true then _ else _) w = _
  rw [marked]
  rfl

theorem begins (w : World) (direct : u.IsDirect) :
    Begins w u (u.program.stretch Visit.tasks w).1 ⟨u, (u.program.stretch Visit.tasks w).2⟩ := by
  cases u with
  | invalidate => exact .invalidates
  | read =>
    cases marked : w.engine.rules.invalidated with
    | false =>
      rw [stretch_read marked]
      exact .serves marked
    | true =>
      rw [stretch_read_marked marked]
      exact .lines trivial fun _ => marked
  | refresh => exact .lines trivial (by simp)
  | call c => exact direct.elim

theorem failed_fetched (loads : u.Loads) (e : SourceError) (w : World) :
    ((u.fetched (.error e)).stretch Visit.tasks w).1.engine.rules.failures ≠ 0 := by
  have counted : min (w.engine.rules.failures + 1) RuleStore.maxFailures ≠ 0 := by
    simp [RuleStore.maxFailures]
  cases u with
  | read => exact counted
  | refresh => exact counted
  | invalidate => exact loads.elim
  | call c => exact loads.elim

theorem poll_fetch {f : Fetching} :
    (∃ a, Request.fetch.poll f w = (w.moved, .answered a)) ∨
      ∃ f', Request.fetch.poll f w = (w, .waiting f') := by
  rw [Request.poll]
  repeat' split
  all_goals first
    | exact .inr ⟨_, rfl⟩
    | exact .inl ⟨_, rfl⟩

/-- Whoever has its turn fetches; a read does so only if that is still asked for. -/
theorem goes_inTurn {t : Ticket} (loads : u.Loads) (turn : w.engine.rules.turns.head? = some t) :
    Goes w (queued u t) (u.inTurn.stretch Visit.tasks w.moved).1
      ⟨u, (u.inTurn.stretch Visit.tasks w.moved).2⟩ := by
  cases u with
  | read =>
    cases marked : w.engine.rules.invalidated with
    | false =>
      have run : Use.read.inTurn.stretch Visit.tasks w.moved =
          (w.moved.endTurn, .finished w.engine.rules.snapshot) := by
        change Prog.stretch Visit.tasks (if w.engine.rules.invalidated = true then _ else _) w.moved = _
        rw [marked]
        rfl
      rw [run]
      exact .spared turn marked
    | true =>
      have run : Use.read.inTurn.stretch Visit.tasks w.moved =
          (w.ask, .waiting .fetch w.moved.moves { readyAt := w.clock + w.source.delay } Use.read.fetched) := by
        change Prog.stretch Visit.tasks (if w.engine.rules.invalidated = true then _ else _) w.moved = _
        rw [marked]
        rfl
      rw [run]
      exact .asks turn trivial
  | refresh => exact Goes.asks (u := .refresh) turn trivial
  | invalidate => exact loads.elim
  | call c => exact loads.elim

theorem goes_fetched {t : Ticket} {f : Fetching} (loads : u.Loads) (answer : Except SourceError (List Rule))
    (served : ((u.fetched answer).stretch Visit.tasks w.moved).1.engine.rules.failures = 0) :
    Goes w (fetching u t f) ((u.fetched answer).stretch Visit.tasks w.moved).1
      ⟨u, ((u.fetched answer).stretch Visit.tasks w.moved).2⟩ := by
  cases answer with
  | error e => exact absurd served (failed_fetched loads e _)
  | ok rules =>
    cases u with
    | read => exact Goes.loads (u := .read) rules _ rfl
    | refresh => exact Goes.loads (u := .refresh) rules _ rfl
    | invalidate => exact loads.elim
    | call c => exact loads.elim

theorem move_answered {r : Request} {t : Ticket} {wait : r.Wait} {next : r.Answer → Prog Visit α}
    {thread : CallThread α} {w₁ : World} {a : r.Answer} (polled : r.poll wait w = (w₁, .answered a))
    (move : CallThread.Move w (.waiting r t wait next) w' thread) :
    w' = ((next a).stretch Visit.tasks w₁).1 ∧ thread = ((next a).stretch Visit.tasks w₁).2 := by
  cases move with
  | wait waiting =>
    rw [polled] at waiting
    cases waiting
  | resume answered =>
    rw [polled] at answered
    obtain ⟨rfl, ⟨⟩⟩ := Prod.mk.inj answered
    exact ⟨rfl, rfl⟩

theorem move_waiting {r : Request} {t : Ticket} {wait wait' : r.Wait} {next : r.Answer → Prog Visit α}
    {thread : CallThread α} {w₁ : World} (polled : r.poll wait w = (w₁, .waiting wait'))
    (move : CallThread.Move w (.waiting r t wait next) w' thread) :
    w' = w₁ ∧ thread = .waiting r t wait' next := by
  cases move with
  | wait waiting =>
    rw [polled] at waiting
    obtain ⟨rfl, ⟨⟩⟩ := Prod.mk.inj waiting
    exact ⟨rfl, rfl⟩
  | resume answered =>
    rw [polled] at answered
    cases answered

theorem Shaped.goes {a : Access} {thread : CallThread a.use.Answer} (shaped : a.Shaped)
    (move : CallThread.Move w a.thread w' thread) (served : w'.engine.rules.failures = 0) :
    Goes w a w' ⟨a.use, thread⟩ := by
  cases shaped with
  | @queued u loads t =>
    by_cases turn : w.engine.rules.turns.head? = some t
    · have polled : Request.refreshTurn.poll t w = (w.moved, .answered ()) := if_pos turn
      obtain ⟨rfl, rfl⟩ := move_answered polled move
      exact goes_inTurn loads turn
    · have polled : Request.refreshTurn.poll t w = (w, .waiting t) := if_neg turn
      obtain ⟨rfl, rfl⟩ := move_waiting polled move
      exact .waits turn
  | @fetching u loads t f =>
    obtain ⟨answer, polled⟩ | ⟨f', polled⟩ := poll_fetch (w := w) (f := f)
    · obtain ⟨rfl, rfl⟩ := move_answered polled move
      exact goes_fetched loads answer served
    · obtain ⟨rfl, rfl⟩ := move_waiting polled move
      exact .reads f' loads
  | ended a => cases move

end Access

namespace Sharing

def at? (s : Sharing) (i : Nat) : Option Access :=
  s.accesses[i]?

def Puts (s : Sharing) (i : Nat) (a : Access) (s' : Sharing) : Prop :=
  ∀ k, s'.at? k = if k = i then some a else s.at? k

variable {s s' : Sharing} {i : Nat} {a b : Access}

theorem puts_make (s : Sharing) (u : Use) :
    s.Puts s.accesses.length ⟨u, (u.program.stretch Visit.tasks s.world).2⟩ (s.make u) := by
  intro k
  simp only [at?, make, List.getElem?_append, List.getElem?_singleton]
  grind

theorem puts_set {w : World} (member : s.at? i = some a) :
    s.Puts i b { world := w, accesses := s.accesses.set i b } := by
  intro k
  have inside : i < s.accesses.length := (List.getElem?_eq_some_iff.mp member).1
  simp only [at?, List.getElem?_set]
  grind

end Sharing

/-- What can happen at a store while no fetch fails. -/
inductive Sharing.Change (s s' : Sharing) : Prop
  | begins {i u a} (vacant : s.at? i = none) (puts : s.Puts i a s')
      (begins : Access.Begins s.world u s'.world a)
  | goes {i a b} (member : s.at? i = some a) (puts : s.Puts i b s') (goes : Access.Goes s.world a s'.world b)
  | outside (same : s'.accesses = s.accesses) (change : s.world.BesideFetches s'.world)

namespace Sharing

variable {s s' : Sharing} {i : Nat} {a b : Access}

theorem Step.change (step : Step s s') (shaped : ∀ {i a}, s.at? i = some a → a.Shaped) : Change s s' := by
  cases step with
  | make u direct =>
    exact .begins (List.getElem?_eq_none (Nat.le_refl _)) (s.puts_make u) (Access.begins s.world direct)
  | move member move served => exact .goes member (puts_set member) ((shaped member).goes move served)
  | outside change => exact .outside rfl change

/-- No two wait for their turn with one ticket. -/
def Apart (s : Sharing) : Prop :=
  ∀ {i j a b t}, s.at? i = some a → s.at? j = some b → a.ticket? = some t → b.ticket? = some t → i = j

/-- What holds of one at the store. Only the holder of the turn may fetch, and nobody waits with the ticket
that it got its turn with. -/
structure Fits (holder : Option Nat) (w : World) (i : Nat) (a : Access) : Prop where
  shaped : a.Shaped
  holds : a.Fetches ↔ holder = some i
  fresh : ∀ {t}, a.ticket? = some t → t < w.moves ∧ (holder.isSome → w.engine.rules.turns.head? ≠ some t)
  given : ∀ {x}, a.result? = some x → x.generation ≤ w.engine.rules.snapshot.generation

/-- What holds of a store and those at it: whoever fetches is the first in line, and all fetches but that one
are counted by the generation. -/
structure Sound (base : Nat) (holder : Option Nat) (s : Sharing) : Prop where
  each : ∀ {i a}, s.at? i = some a → Fits holder s.world i a
  apart : s.Apart
  line : holder.isSome → ∃ t < s.world.moves, s.world.engine.rules.turns.head? = some t
  there : ∀ {i}, holder = some i → ∃ a, s.at? i = some a
  counted : s.world.source.fetches = base + s.world.engine.rules.snapshot.generation + holder.toList.length

variable {base : Nat} {holder holder' : Option Nat}

theorem Puts.apart (puts : s.Puts i a s') (apart : s.Apart)
    (new : ∀ {t j b}, a.ticket? = some t → j ≠ i → s.at? j = some b → b.ticket? ≠ some t) :
    s'.Apart := by
  intro j k b c t hereb herec standsb standsc
  rw [puts] at hereb herec
  split at hereb <;> split at herec
  case isTrue.isTrue first second => exact first.trans second.symm
  case isTrue.isFalse first other =>
    obtain rfl := Option.some.inj hereb
    exact absurd standsc (new standsb other herec)
  case isFalse.isTrue other second =>
    obtain rfl := Option.some.inj herec
    exact absurd standsb (new standsc other hereb)
  case isFalse.isFalse => exact apart hereb herec standsb standsc

/-- What one use does leaves the others in order. -/
theorem Puts.sound (puts : s.Puts i a s') (sound : Sound base holder s) (moves : s.world.moves ≤ s'.world.moves)
    (here : Fits holder' s'.world i a)
    (new : ∀ {t j b}, a.ticket? = some t → j ≠ i → s.at? j = some b → b.ticket? ≠ some t)
    (keeps : ∀ {j}, j ≠ i → (holder = some j ↔ holder' = some j))
    (clear : ∀ {t j b}, holder'.isSome → j ≠ i → s.at? j = some b → b.ticket? = some t →
      s'.world.engine.rules.turns.head? ≠ some t)
    (line : holder'.isSome → ∃ t < s'.world.moves, s'.world.engine.rules.turns.head? = some t)
    (generation : s.world.engine.rules.snapshot.generation ≤ s'.world.engine.rules.snapshot.generation)
    (counted : s'.world.source.fetches =
      base + s'.world.engine.rules.snapshot.generation + holder'.toList.length) :
    Sound base holder' s' := by
  refine ⟨fun {k b} there => ?_, puts.apart sound.apart new, line, fun {k} holds => ?_, counted⟩
  · rw [puts] at there
    split at there
    case isTrue same =>
      obtain rfl := Option.some.inj there
      exact same ▸ here
    case isFalse other =>
      have before := sound.each there
      exact ⟨before.shaped, before.holds.trans (keeps other), fun stands =>
        ⟨Nat.lt_of_lt_of_le (before.fresh stands).1 moves, fun held => clear held other there stands⟩,
        fun gave => Nat.le_trans (before.given gave) generation⟩
  · rw [puts]
    split
    case isTrue => exact ⟨a, rfl⟩
    case isFalse other => exact sound.there ((keeps other).mpr holds)

theorem fits_ended {w : World} {u : Use} {answer : u.Answer} (free : holder ≠ some i)
    (given : ∀ {x}, (Access.mk u (.finished answer)).result? = some x →
      x.generation ≤ w.engine.rules.snapshot.generation) : Fits holder w i ⟨u, .finished answer⟩ :=
  ⟨.ended answer, iff_of_false id free, nofun, given⟩

theorem Sound.free (sound : Sound base holder s) (vacant : s.at? i = none) : holder ≠ some i := by
  intro holds
  obtain ⟨a, here⟩ := sound.there holds
  rw [vacant] at here
  cases here

theorem Sound.clear (sound : Sound base holder s) {t : Ticket} (held : holder.isSome) (here : s.at? i = some a)
    (stands : a.ticket? = some t) : s.world.engine.rules.turns.head? ≠ some t :=
  ((sound.each here).fresh stands).2 held

theorem Sound.begins {u : Use} (sound : Sound base holder s) (vacant : s.at? i = none) (puts : s.Puts i a s')
    (begins : Access.Begins s.world u s'.world a) : Sound base holder s' := by
  have free := sound.free vacant
  obtain ⟨w, accesses⟩ := s
  obtain ⟨w', accesses'⟩ := s'
  cases begins with
  | invalidates =>
    exact puts.sound sound (Nat.le_refl _) (fits_ended free nofun) nofun (fun _ => .rfl)
      (fun held _ => sound.clear held) sound.line (Nat.le_refl _) sound.counted
  | serves valid =>
    refine puts.sound sound (Nat.le_refl _) (fits_ended free fun gives => ?_) nofun (fun _ => .rfl)
      (fun held _ => sound.clear held) sound.line (Nat.le_refl _) sound.counted
    exact Nat.le_of_eq (congrArg _ (Option.some.inj gives).symm)
  | @lines u loads asked =>
    -- Whoever lines up stands behind the holder, if there is one.
    have head (held : holder.isSome) : ∃ t < w.moves,
        (w.engine.rules.turns ++ [w.moves]).head? = some t ∧ w.engine.rules.turns.head? = some t := by
      obtain ⟨t, earlier, first⟩ := sound.line held
      exact ⟨t, earlier, by rw [List.head?_append, first]; rfl, first⟩
    refine puts.sound sound (Nat.le_succ _) ⟨.queued loads _, iff_of_false id free, ?_, by simp⟩ ?_
      (fun _ => .rfl) ?_ ?_ (Nat.le_refl _) sound.counted
    · rintro _ ⟨⟩
      refine ⟨Nat.lt_succ_self _, fun held first => ?_⟩
      obtain ⟨t, earlier, first', -⟩ := head held
      exact Nat.ne_of_lt earlier (Option.some.inj (first'.symm.trans first))
    · rintro _ j b ⟨⟩ - here stands
      exact Nat.lt_irrefl _ ((sound.each here).fresh stands).1
    · intro t j b held other here stands first
      obtain ⟨t', -, first', before⟩ := head held
      exact sound.clear held here stands (before.trans (first'.symm.trans first))
    · intro held
      obtain ⟨t, earlier, first, -⟩ := head held
      exact ⟨t, Nat.lt_succ_of_lt earlier, first⟩

theorem Sound.goes (sound : Sound base holder s) (member : s.at? i = some a) (puts : s.Puts i b s')
    (goes : Access.Goes s.world a s'.world b) : ∃ holder', Sound base holder' s' := by
  have here := sound.each member
  -- Whoever is first in line waits with the ticket that a holder would have, so that there is no holder.
  have free {t} (stands : a.ticket? = some t) (turn : s.world.engine.rules.turns.head? = some t) : holder = none :=
    Option.not_isSome_iff_eq_none.mp fun held => sound.clear held member stands turn
  obtain ⟨w, accesses⟩ := s
  obtain ⟨w', accesses'⟩ := s'
  cases goes with
  | waits later =>
    refine ⟨holder, puts.sound sound (Nat.le_refl _) here (fun stands other there also => ?_) (fun _ => .rfl)
      (fun held _ => sound.clear held) sound.line (Nat.le_refl _) sound.counted⟩
    exact other (sound.apart there member also stands)
  | spared turn valid =>
    obtain rfl := free rfl turn
    refine ⟨none, puts.sound sound (Nat.le_succ _) (fits_ended nofun fun gives => ?_) nofun (fun _ => .rfl)
      nofun nofun (Nat.le_refl _) sound.counted⟩
    exact Nat.le_of_eq (congrArg _ (Option.some.inj gives).symm)
  | @asks u t t' f turn loads =>
    obtain rfl := free rfl turn
    have earlier := (here.fresh rfl).1
    refine ⟨some i, puts.sound sound (Nat.le_add_right _ 2)
      ⟨.fetching loads _ _, iff_of_true trivial rfl, nofun, by simp⟩ nofun (fun other => ?_)
      (fun _ other there stands first => ?_) (fun _ => ⟨t, Nat.lt_add_right 2 earlier, turn⟩) (Nat.le_refl _)
      (congrArg (· + 1) sound.counted)⟩
    · simp [Ne.symm other]
    · have same := Option.some.inj (turn.symm.trans first)
      exact other (sound.apart there member stands (congrArg some same))
  | reads f' loads =>
    exact ⟨holder, puts.sound sound (Nat.le_refl _) ⟨.fetching loads _ _, here.holds, nofun, by simp⟩ nofun
      (fun _ => .rfl) (fun held _ => sound.clear held) sound.line (Nat.le_refl _) sound.counted⟩
  | loads rules answer gives =>
    obtain rfl := here.holds.mp trivial
    have next := w.generation_load rules
    refine ⟨none, puts.sound sound (Nat.le_succ _) (fits_ended nofun fun gave => ?_) nofun (fun other => ?_)
      nofun nofun (next ▸ Nat.le_succ _) (next ▸ sound.counted)⟩
    · exact Nat.le_of_eq (congrArg _ (Option.some.inj (gave.symm.trans gives)))
    · simp [Ne.symm other]

theorem Change.sound (change : Change s s') (sound : Sound base holder s) :
    ∃ holder', Sound base holder' s' := by
  cases change with
  | outside same change =>
    have moves : s'.world.moves = s.world.moves := by
      obtain ⟨source, sink, clock, calendar, jitter, lulls, woken, later, same⟩ := change.1
      rw [same]
    have rules := change.unasked.rules
    have counted := change.unasked.fetches.trans sound.counted
    obtain ⟨w, accesses⟩ := s
    obtain ⟨w', accesses'⟩ := s'
    dsimp only at *
    subst same
    refine ⟨holder, fun here => ?_, sound.apart, moves ▸ rules ▸ sound.line, sound.there, rules ▸ counted⟩
    have before := sound.each here
    exact ⟨before.shaped, before.holds, moves ▸ rules ▸ before.fresh, rules ▸ before.given⟩
  | begins vacant puts begins => exact ⟨holder, sound.begins vacant puts begins⟩
  | goes member puts goes => exact sound.goes member puts goes

/-! ### What a run keeps -/

theorem Run.sound (run : Run s s') (sound : Sound base holder s) : ∃ holder', Sound base holder' s' := by
  induction run with
  | refl => exact ⟨holder, sound⟩
  | tail _ step ih =>
    obtain ⟨between, sound⟩ := ih
    exact (step.change fun here => (sound.each here).shaped).sound sound

theorem Run.keeps {P : Sharing → Prop} (run : Run s s') (sound : Sound base holder s) (begun : P s)
    (kept : ∀ {s s' holder}, Sound base holder s → Change s s' → P s → P s') : P s' := by
  induction run with
  | refl => exact begun
  | tail run step ih =>
    obtain ⟨between, sound⟩ := Run.sound run sound
    exact kept sound (step.change fun here => (sound.each here).shaped) ih

theorem Change.later (change : Change s s') : s.world.Later s'.world := by
  obtain ⟨w, accesses⟩ := s
  obtain ⟨w', accesses'⟩ := s'
  cases change with
  | outside same change =>
    have rules := change.unasked.rules
    exact World.later_of_same (congrArg _ rules) (congrArg _ rules) change.unasked.fetches
  | begins vacant puts begins =>
    cases begins with
    | invalidates => exact ⟨Nat.le_refl _, Nat.le_refl _, fun _ => .inl rfl⟩
    | serves valid => exact World.later_of_same rfl rfl rfl
    | lines loads asked => exact World.later_of_same rfl rfl rfl
  | goes member puts goes =>
    cases goes with
    | waits later => exact World.later_of_same rfl rfl rfl
    | spared turn valid => exact World.later_of_same rfl rfl rfl
    | asks turn loads => exact ⟨Nat.le_succ _, Nat.le_refl _, fun _ => .inr (Nat.lt_succ_self _)⟩
    | reads f' loads => exact World.later_of_same rfl rfl rfl
    | loads rules answer gives => exact ⟨Nat.le_refl _, w.generation_load rules ▸ Nat.le_succ _, .inl⟩

theorem Change.at (change : Change s s') (here : s.at? i = some a) :
    s'.at? i = some a ∨ ∃ b, s'.at? i = some b ∧ Access.Goes s.world a s'.world b := by
  cases change with
  | outside same change => exact .inl ((congrArg (·[i]?) same).trans here)
  | @begins j u b vacant puts begins =>
    have other : i ≠ j := by
      rintro rfl
      rw [here] at vacant
      cases vacant
    exact .inl ((puts i).trans ((if_neg other).trans here))
  | @goes j b c member puts goes =>
    by_cases same : i = j
    · subst same
      obtain rfl := Option.some.inj (here.symm.trans member)
      exact .inr ⟨c, (puts i).trans (if_pos rfl), goes⟩
    · exact .inl ((puts i).trans ((if_neg same).trans here))

/-- A fetch is asked for, or more than `k` have begun. -/
def Since (k : Nat) (s : Sharing) : Prop :=
  k ≤ s.world.source.fetches ∧ (s.world.engine.rules.invalidated = true ∨ k < s.world.source.fetches)

theorem Change.since {k : Nat} (change : Change s s') (since : s.Since k) : s'.Since k := by
  obtain ⟨fetches, -, marks⟩ := change.later
  obtain ⟨reached, marked | begun⟩ := since
  · rcases marks marked with marked | more
    · exact ⟨Nat.le_trans reached fetches, .inl marked⟩
    · exact ⟨Nat.le_trans reached fetches, .inr (Nat.lt_of_le_of_lt reached more)⟩
  · exact ⟨Nat.le_trans reached fetches, .inr (Nat.lt_of_lt_of_le begun fetches)⟩

/-- How far a read is that is to have more than the first `k` fetches. -/
inductive Awaits (base k : Nat) (w : World) : Access → Prop
  | queued (t : Ticket) : Awaits base k w (.queued .read t)
  | fetching (t : Ticket) (f : ThresholdAlerts.Fetching) (begun : k < w.source.fetches) :
      Awaits base k w (.fetching .read t f)
  | answered {snapshot : RuleSnapshot} (newer : k < base + snapshot.generation) :
      Awaits base k w ⟨.read, .finished snapshot⟩

/-- A read that began when a fetch was asked for waits for a fetch that begins after it. -/
theorem Change.awaits {k : Nat} (change : Change s s') (sound : Sound base holder s) (since : s.Since k)
    (here : s.at? i = some a) (awaits : Awaits base k s.world a) :
    ∃ b, s'.at? i = some b ∧ Awaits base k s'.world b := by
  have fetches := change.later.fetches
  obtain still | ⟨b, moved, goes⟩ := change.at here
  · refine ⟨a, still, ?_⟩
    cases awaits with
    | queued t => exact .queued t
    | fetching t f begun => exact .fetching t f (Nat.lt_of_lt_of_le begun fetches)
    | answered newer => exact .answered newer
  · refine ⟨b, moved, ?_⟩
    have fits := sound.each here
    have counted := sound.counted
    obtain ⟨w, accesses⟩ := s
    obtain ⟨w', accesses'⟩ := s'
    cases awaits with
    | queued t =>
      cases goes with
      | waits later => exact .queued t
      | spared turn valid =>
        have free : holder = none := Option.not_isSome_iff_eq_none.mp fun held => (fits.fresh rfl).2 held turn
        obtain marked | begun := since.2
        · exact absurd (valid.symm.trans marked) Bool.false_ne_true
        · subst free
          exact .answered (Nat.lt_of_lt_of_eq begun counted)
      | asks turn loads => exact .fetching _ _ (Nat.lt_succ_of_le since.1)
    | fetching t f begun =>
      cases goes with
      | reads f' loads => exact .fetching _ _ begun
      | loads rules answer gives =>
        have next := w.generation_load rules
        obtain rfl := fits.holds.mp trivial
        obtain rfl := Option.some.inj gives
        exact .answered (Nat.lt_of_lt_of_eq begun (counted.trans (congrArg (base + ·) next.symm)))
    | answered newer => cases goes

/-- A use that can answer with rules of generation `g` only, or with newer ones. -/
structure AtLeast (g i : Nat) (s : Sharing) : Prop where
  reached : g ≤ s.world.engine.rules.snapshot.generation
  under : ∃ a, s.at? i = some a
  gives : ∀ {a x}, s.at? i = some a → a.result? = some x → g ≤ x.generation

/-- What is answered is not older than the rules at any moment at which the use was under way. -/
theorem Change.atLeast {g : Nat} (change : Change s s') (before : AtLeast g i s) : AtLeast g i s' := by
  have later := Nat.le_trans before.reached change.later.generation
  obtain ⟨a, here⟩ := before.under
  obtain still | ⟨b, moved, goes⟩ := change.at here
  · refine ⟨later, ⟨a, still⟩, fun {b x} there gave => ?_⟩
    obtain rfl := Option.some.inj (still.symm.trans there)
    exact before.gives here gave
  · refine ⟨later, ⟨b, moved⟩, fun {c x} there gave => ?_⟩
    obtain rfl := Option.some.inj (moved.symm.trans there)
    generalize s'.world = w' at goes later
    cases goes with
    | waits later => simp at gave
    | spared turn valid => exact Option.some.inj gave ▸ before.reached
    | asks turn loads => simp at gave
    | reads f' loads => simp at gave
    | loads rules answer gives => exact Option.some.inj (gives.symm.trans gave) ▸ later

theorem Change.answered {u : Use} {answer : u.Answer} (change : Change s s')
    (here : s.at? i = some ⟨u, .finished answer⟩) : s'.at? i = some ⟨u, .finished answer⟩ := by
  obtain still | ⟨b, moved, goes⟩ := change.at here
  · exact still
  · cases goes

section Asking

variable {w₀ : World} {age : Duration} {s₁ s₂ s₃ : Sharing} {u : Use}

theorem sound_begin (new : w₀.engine.rules = { maxStaleness := age }) :
    Sound w₀.source.fetches none { world := w₀ } := by
  refine ⟨nofun, nofun, nofun, nofun, ?_⟩
  rw [new]
  rfl

theorem Marked.sound (new : w₀.engine.rules = { maxStaleness := age }) (marked : Marked w₀ s₁) :
    (∃ holder, Sound w₀.source.fetches holder s₁) ∧ s₁.Since s₁.world.source.fetches := by
  cases marked with
  | new => exact ⟨⟨none, sound_begin new⟩, Nat.le_refl _, .inl (congrArg RuleStore.invalidated new)⟩
  | invalidated run =>
    have run : Run { world := w₀ } (Sharing.make _ .invalidate) := run.tail (.make .invalidate trivial)
    exact ⟨run.sound (sound_begin new), Nat.le_refl _, .inl rfl⟩

theorem Sound.fetching_iff (sound : Sound base holder s) : s.Fetching ↔ holder.isSome := by
  constructor
  · rintro ⟨a, member, fetches⟩
    obtain ⟨i, here⟩ := List.getElem?_of_mem member
    exact Option.isSome_iff_exists.mpr ⟨i, (sound.each here).holds.mp fetches⟩
  · intro held
    obtain ⟨i, rfl⟩ := Option.isSome_iff_exists.mp held
    obtain ⟨a, here⟩ := sound.there rfl
    exact ⟨a, List.mem_of_getElem? here, (sound.each here).holds.mpr rfl⟩

/-- The rules at hand are older than an invalidation that a fetch has served if that fetch is under way. -/
theorem Sound.older_iff {k : Nat} (sound : Sound base holder s) (since : s.Since k)
    (valid : s.world.engine.rules.invalidated = false) :
    base + s.world.engine.rules.snapshot.generation ≤ k ↔ s.Fetching ∧ s.world.source.fetches = k + 1 := by
  have counted := sound.counted
  have begun : k < s.world.source.fetches :=
    since.2.resolve_left fun marked => Bool.false_ne_true (valid.symm.trans marked)
  rw [sound.fetching_iff]
  cases holder with
  | none =>
    simp only [Option.toList_none, List.length_nil, Option.isSome_none, Bool.false_eq_true, false_and,
      iff_false] at counted ⊢
    omega
  | some i =>
    simp only [Option.toList_some, List.length_singleton, Option.isSome_some, true_and] at counted ⊢
    omega

/-- A read that finds the rules invalidated gets rules from a fetch that begins later. -/
theorem Sound.newer (sound : Sound base holder s) (marked : s.world.engine.rules.invalidated = true)
    (ends : Run (s.make .read) s') {x : RuleSnapshot} (there : s'.at? s.accesses.length = some a)
    (gives : a.result? = some x) : s.world.source.fetches < base + x.generation := by
  have change := Step.change (.make .read trivial) fun here => (sound.each here).shaped
  obtain ⟨holder', made⟩ := change.sound sound
  have since : (s.make .read).Since s.world.source.fetches := change.since ⟨Nat.le_refl _, .inl marked⟩
  have place : (s.make .read).at? s.accesses.length = some (.queued .read s.world.moves) := by
    rw [s.puts_make .read, if_pos rfl, Access.stretch_read_marked marked]
    rfl
  obtain ⟨-, b, here, awaits⟩ := ends.keeps
    (P := fun t => t.Since s.world.source.fetches ∧
      ∃ b, t.at? s.accesses.length = some b ∧ Awaits base s.world.source.fetches t.world b)
    made ⟨since, _, place, .queued _⟩ fun sound change ⟨since, b, here, awaits⟩ =>
      ⟨change.since since, change.awaits sound since here awaits⟩
  obtain rfl := Option.some.inj (here.symm.trans there)
  cases awaits with
  | queued t => simp at gives
  | fetching t f begun => simp at gives
  | answered newer => exact Option.some.inj gives ▸ newer

theorem Sound.atLeast (sound : Sound base holder s) (direct : u.IsDirect) :
    AtLeast s.world.engine.rules.snapshot.generation s.accesses.length (s.make u) := by
  have change := Step.change (.make u direct) fun here => (sound.each here).shaped
  have place := (s.puts_make u s.accesses.length).trans (if_pos rfl)
  refine ⟨change.later.generation, ⟨_, place⟩, fun {a x} here gave => ?_⟩
  obtain rfl := Option.some.inj (place.symm.trans here)
  have begins := Access.begins s.world direct
  generalize (u.program.stretch Visit.tasks s.world).1 = w at begins
  generalize (u.program.stretch Visit.tasks s.world).2 = thread at begins gave
  cases begins with
  | invalidates => cases gave
  | serves valid => exact Option.some.inj gave ▸ Nat.le_refl _
  | lines loads asked => exact nomatch (Access.result_queued u _).symm.trans gave

/-- A read that begins after an invalidation gets rules that are older than it exactly if it begins while the
first fetch since is under way, with no invalidation since that began; and nobody gets older rules than have
been answered before. -/
theorem fresh_unless_fetching (new : w₀.engine.rules = { maxStaleness := age }) (marked : Marked w₀ s₁)
    (later : Run s₁ s₂) (direct : u.IsDirect) (ends : Run (s₂.make u) s₃) {a : Access} {snapshot : RuleSnapshot}
    (there : s₃.accesses[s₂.accesses.length]? = some a) (gives : a.result? = some snapshot) :
    (u = .read → (w₀.source.fetches + snapshot.generation ≤ s₁.world.source.fetches ↔
      s₂.Fetching ∧ s₂.world.engine.rules.invalidated = false ∧
        s₂.world.source.fetches = s₁.world.source.fetches + 1)) ∧
      ∀ b ∈ s₂.accesses, ∀ older, b.result? = some older → older.generation ≤ snapshot.generation := by
  obtain ⟨⟨holder₁, sound₁⟩, since₁⟩ := marked.sound new
  obtain ⟨holder₂, sound₂⟩ := later.sound sound₁
  have since₂ : s₂.Since s₁.world.source.fetches :=
    later.keeps sound₁ since₁ fun _ change since => change.since since
  obtain ⟨holder, sound⟩ := (Step.change (.make u direct) fun here => (sound₂.each here).shaped).sound sound₂
  constructor
  · rintro rfl
    cases valid : s₂.world.engine.rules.invalidated with
    | false =>
      have place : (s₂.make .read).at? s₂.accesses.length =
          some ⟨.read, .finished s₂.world.engine.rules.snapshot⟩ := by
        rw [s₂.puts_make .read, if_pos rfl, Access.stretch_read valid]
      have still := ends.keeps sound place fun _ change here => change.answered here
      obtain rfl := Option.some.inj (still.symm.trans there)
      obtain rfl := Option.some.inj gives
      simpa using sound₂.older_iff since₂ valid
    | true =>
      have newer := Nat.lt_of_le_of_lt since₂.1 (sound₂.newer valid ends there gives)
      exact iff_of_false (Nat.not_le_of_lt newer) fun ⟨_, unmarked, _⟩ => Bool.noConfusion unmarked
  · intro b member older gave
    obtain ⟨j, here⟩ := List.getElem?_of_mem member
    have last := ends.keeps sound (sound₂.atLeast direct) fun _ change before => change.atLeast before
    exact Nat.le_trans ((sound₂.each here).given gave) (last.gives there gives)

end Asking

def resume (s : Sharing) (i : Nat) : Sharing :=
  match s.accesses[i]? with
  | some ⟨u, .waiting r ticket wait next⟩ =>
    match r.poll wait s.world with
    | (w, .answered a) =>
      let moved := (next a).stretch Visit.tasks w
      { world := moved.1, accesses := s.accesses.set i ⟨u, moved.2⟩ }
    | (w, .waiting wait) => { world := w, accesses := s.accesses.set i ⟨u, .waiting r ticket wait next⟩ }
  | _ => s

theorem Run.resume {s₀ : Sharing} (run : Run s₀ s) (i : Nat)
    (served : (s.resume i).world.engine.rules.failures = 0) : Run s₀ (s.resume i) := by
  revert served
  rw [Sharing.resume]
  split
  next u r ticket wait next here =>
    split
    next w a polled => exact fun served => run.tail (.move here (.resume polled) served)
    next w wait' polled => exact fun served => run.tail (.move here (.wait polled) served)
  next => exact fun _ => run

/-- A new store whose source takes its time. -/
def opened : Sharing :=
  { world := (World.watched { workers := 1 } {}).editSource (.setDelay (.ofMillis 50)) }

/-- The first read of it fetches. -/
def opening : Sharing :=
  (opened.make .read).resume 0

theorem run_opening : Run opened opening :=
  Run.resume (ReflTransGen.single (.make .read trivial)) 0 (by decide +kernel)

/-- Whoever reads meanwhile gets no rules, for none have been loaded. -/
theorem no_rules_while_loading : ¬ ∀ {w₀ : World} {age : Duration} {s₁ s₂ s₃ : Sharing} {a : Access}
    {snapshot : RuleSnapshot}, w₀.engine.rules = { maxStaleness := age } → Marked w₀ s₁ → Run s₁ s₂ →
    Run (s₂.make .read) s₃ → s₃.accesses[s₂.accesses.length]? = some a → a.result? = some snapshot →
    s₁.world.source.fetches < w₀.source.fetches + snapshot.generation := by
  intro fresh
  have second : (opening.make .read).accesses[opening.accesses.length]? =
      some ⟨.read, .finished opening.world.engine.rules.snapshot⟩ := by
    rfl
  exact absurd (fresh rfl .new run_opening .refl second rfl) (by decide +kernel)

/-- Then the source has answered. -/
def loaded : Sharing :=
  Sharing.resume { opening with world := { opening.world with clock := .ofMillis 50 } } 0

/-- The rules are invalidated, and fetched again. -/
def reopening : Sharing :=
  ((loaded.make .invalidate).make .read).resume 2

theorem run_loaded : Run opened loaded := by
  have later : opening.world.BesideFetches { opening.world with clock := .ofMillis 50 } :=
    ⟨⟨_, _, .ofMillis 50, _, _, _, _, by decide +kernel, rfl⟩, rfl⟩
  exact Run.resume (run_opening.tail (.outside later)) 0 (by decide +kernel)

theorem run_reopening : Run (loaded.make .invalidate) reopening :=
  Run.resume (ReflTransGen.single (.make .read trivial)) 2 (by decide +kernel)

/-- A second reader gets the rules from before the invalidation, because the first one is fetching. -/
theorem old_rules_while_fetching :
    (∃ snapshot,
      (reopening.make .read).accesses[reopening.accesses.length]? = some ⟨.read, .finished snapshot⟩ ∧
        snapshot.generation ≤ (loaded.make .invalidate).world.source.fetches) ∧ reopening.Fetching := by
  have second : (reopening.make .read).accesses[reopening.accesses.length]? =
      some ⟨.read, .finished reopening.world.engine.rules.snapshot⟩ := rfl
  have old : opened.world.source.fetches + reopening.world.engine.rules.snapshot.generation ≤
      (loaded.make .invalidate).world.source.fetches := by decide +kernel
  obtain ⟨older, -⟩ :=
    fresh_unless_fetching (u := .read) rfl (.invalidated run_loaded) run_reopening trivial .refl second rfl
  exact ⟨⟨_, second, Nat.le_trans (Nat.le_add_left _ _) old⟩, ((older rfl).mp old).1⟩

end Sharing
end ThresholdAlerts
