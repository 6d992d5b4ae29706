import ThresholdAlerts.Proofs.Answers
import ThresholdAlerts.Proofs.Scenes
import ThresholdAlerts.Proofs.Solitude
/-! Calls that are carried out directly and calls under way. A call among no others may wait, and time passes
meanwhile. Main statements: running a call is one of the ways in which its moves may go, with its visits done one after
the other; and a call that does nothing side by side comes to just that when it is polled to its end. -/
namespace ThresholdAlerts

open Function Relation

/-- A thread moves, or time passes while it does nothing. -/
def Lone {C : Type} (move : World → C → World → C → Prop) (a b : World × C) : Prop :=
  move a.1 a.2 b.1 b.2 ∨ a.1.Idles b.1 ∧ b.2 = a.2

/-- Whatever is held or waited for is held or waited for by one call, which stands at `σ`. -/
def World.Solitary (σ : Stance) (w : World) : Prop :=
  ∃ holders, Orderly w (update (fun _ => .free) (0, none) σ) holders

section Solitary

variable {w w' : World} {σ : Stance} {st : Place → Stance} {holders : RuleId → Option Work} {T C α : Type}
  {t : Tasks T C} {childMove : World → C → World → C → Prop} {tasks : T → Prop}
  {task : T → World → World × List Event} {ticket : Ticket}

theorem World.Idles.elsewhere (idles : w.Idles w') : w.Elsewhere w' := by
  obtain ⟨clock, lulls, later, -, rfl⟩ := idles
  exact ⟨_, _, clock, _, _, lulls, _, later, rfl⟩

namespace World.Solitary

theorem elsewhere (solitary : w.Solitary σ) (change : w.Elsewhere w') : w'.Solitary σ := by
  obtain ⟨holders, orderly⟩ := solitary
  exact ⟨holders, orderly.elsewhere change⟩

theorem surroundings : Surroundings .mixed (fun _ => False) fun σ w => w.Solitary σ := by
  have around {σ w} (solitary : World.Solitary σ w) :
      Around (fun _ _ => True) (fun _ => .free) (0, none) w σ w := by
    obtain ⟨holders, orderly⟩ := solitary
    exact ⟨holders, orderly, trivial, fun _ _ => trivial, .refl _, .refl _⟩
  have env (w : World) : Surroundings .mixed (fun _ => False) (Around (fun _ _ => True) (fun _ => .free) (0, none) w) :=
    ThresholdAlerts.surroundings ⟨fun _ _ => trivial, fun _ _ _ _ => trivial⟩ fun _ _ => trivial
  exact {
    coherent := fun e => (env _).coherent (around e)
    stands := fun e => (env _).stands (around e)
    ripe := fun e => (env _).ripe (around e)
    tidy := fun e => (env _).tidy (around e)
    move := fun e move spares =>
      have ⟨holders, orderly, _⟩ := (env _).move (around e) move spares
      ⟨holders, orderly⟩ }

theorem free (solitary : w.Solitary .free) : (∀ id, w.engine.tracker.queues id = []) ∧ w.turns = [] := by
  obtain ⟨holders, orderly⟩ := solitary
  have empty (l : Lock) : w.queue l = [] := by
    refine List.eq_nil_iff_forall_not_mem.mpr fun t mem => ?_
    obtain ⟨p, there⟩ := orderly.manned.owned mem
    rw [update_eq_self_iff.mpr rfl] at there
    exact absurd there (by simp [Stance.spot?])
  exact ⟨fun id => empty (.slot id), empty .refresh⟩

end World.Solitary

/-- A request that is made alone is answered as it is when it meets no other. -/
theorem Request.endures {r : Request} {next : r.Answer → Stance → World → Prop}
    (admits : r.Admits .mixed σ w next) (solitary : w.Solitary σ) :
    r.Endures (r.start w.takeTicket.2 w.takeTicket.1).1 (r.start w.takeTicket.2 w.takeTicket.1).2 (r.complete w).1
      (r.complete w).2 := by
  have coherent := World.Solitary.surroundings.coherent solitary
  cases r with
  | slot rule =>
    obtain ⟨rfl, -⟩ := admits
    exact endures_slot (w := w.takeTicket.1) coherent solitary.free.1 rule _
  | existingSlot rule =>
    obtain ⟨rfl, -⟩ := admits
    exact endures_existingSlot (w := w.takeTicket.1) coherent solitary.free.1 rule _
  | knownSlot id =>
    obtain ⟨rfl, -⟩ := admits
    exact endures_knownSlot (w := w.takeTicket.1) solitary.free.1 id _
  | refreshTurn =>
    obtain ⟨rfl, -⟩ := admits
    exact endures_refreshTurn (w := w.takeTicket.1) solitary.free.2 _
  | fetch => exact endures_fetch w.takeTicket.1 _
  | deliver event => exact endures_deliver w.takeTicket.1 event _
  | findOpen rules => exact endures_findOpen w.takeTicket.1 rules _
  | findAll => exact endures_findAll w.takeTicket.1 _
  | sleep span => exact endures_sleep w.takeTicket.1 span _

theorem Request.Endures.awaits {r : Request} {wait : r.Wait} {a : r.Answer} {next : r.Answer → Stance → World → Prop}
    (endures : r.Endures w wait w' a) (awaits : r.Awaits .mixed wait σ w next) (solitary : w.Solitary σ) :
    ∃ σ', w'.Solitary σ' ∧ next a σ' w' := by
  have spares {r : Request} {wait : r.Wait} {w : World} : r.Spares (fun _ => False) wait w := fun _ _ => id
  induction endures generalizing σ with
  | answered polled =>
    have goes := Request.polled World.Solitary.surroundings awaits solitary spares
    rwa [polled] at goes
  | waits polled idles rest ih =>
    have goes := Request.polled World.Solitary.surroundings awaits solitary spares
    rw [polled] at goes
    obtain ⟨σ', solitary', awaits'⟩ := goes
    have change := idles.elsewhere
    exact ih (awaits'.later change.relies change.ages (change.undisturbed _)) (solitary'.elsewhere change)

theorem Lone.endures {r : Request} {wait : r.Wait} {a : r.Answer} (endures : r.Endures w wait w' a)
    (next : r.Answer → Prog T α) :
    ReflTransGen (Lone (Thread.Move t childMove)) (w, .waiting r ticket wait next) ((next a).stretch t w') := by
  induction endures with
  | answered polled => exact .single (.inl (.resume polled))
  | @waits w wait w₁ wait₁ w₂ w' a polled idles rest ih =>
    have waits : Lone (Thread.Move t childMove) (w₁, .waiting r ticket wait₁ next) (w₂, .waiting r ticket wait₁ next) :=
      .inr ⟨idles, rfl⟩
    exact .head (.inl (.wait polled)) (.head waits ih)

def Tasks.Carries (t : Tasks T C) (childMove : World → C → World → C → Prop) (tasks : T → Prop)
    (task : T → World → World × List Event) : Prop :=
  ∀ v w, tasks v → World.Solitary .free w → (task v w).1.Solitary .free ∧ ∃ c,
    ReflTransGen (Lone childMove) (w, t.ready v) ((task v w).1, c) ∧ t.result? c = some (task v w).2

theorem Lone.child {children : List C} {line : Line} {next : List (List Event) → Prog T α} {i : Nat}
    {a b : World × C} (member : children[i]? = some a.2) (goes : ReflTransGen (Lone childMove) a b) :
    ReflTransGen (Lone (Thread.Move t childMove)) (a.1, .joining children line next)
      (b.1, .joining (children.set i b.2) line next) := by
  have inside : i < children.length := (List.getElem?_eq_some_iff.mp member).1
  induction goes with
  | refl => rw [set_of_getElem? member]
  | @tail b c _ step ih =>
    rcases step with move | ⟨idles, same⟩
    · have step : Thread.Move t childMove b.1 (.joining (children.set i b.2) line next) c.1
          (.joining ((children.set i b.2).set i c.2) line next) := .child (List.getElem?_set_self inside) move
      rw [List.set_set] at step
      exact ih.tail (.inl step)
    · exact ih.tail (.inr ⟨idles, by rw [same]⟩)

/-- Tasks that are carried out one after the other. -/
theorem Lone.each (carries : t.Carries childMove tasks task) (line : Line) (next : List (List Event) → Prog T α)
    (solitary : w.Solitary .free) (before : List C) (ts : List T) (allowed : ∀ v ∈ ts, tasks v) :
    (Prog.runEach task ts w).1.Solitary .free ∧ ∃ children,
      ReflTransGen (Lone (Thread.Move t childMove)) (w, .joining (before ++ ts.map t.ready) line next)
        ((Prog.runEach task ts w).1, .joining (before ++ children) line next) ∧
      t.results? children = some (Prog.runEach task ts w).2 := by
  induction ts generalizing w before with
  | nil => exact ⟨solitary, [], .refl, rfl⟩
  | cons v ts ih =>
    obtain ⟨mine, others⟩ := List.forall_mem_cons.mp allowed
    obtain ⟨solitary₁, c, goes, ends⟩ := carries v w mine solitary
    obtain ⟨solitary₂, children, goes', ends'⟩ := ih solitary₁ (before ++ [c]) others
    refine ⟨solitary₂, c :: children, ?_, ?_⟩
    · have here : (before ++ t.ready v :: ts.map t.ready)[before.length]? = some (t.ready v) := by simp
      have first : ReflTransGen (Lone (Thread.Move t childMove))
          (w, .joining (before ++ t.ready v :: ts.map t.ready) line next) _ := Lone.child (a := (w, t.ready v)) here goes
      rw [List.set_append_right _ _ (Nat.le_refl _), Nat.sub_self, List.set_cons_zero] at first
      simp only [List.append_assoc, List.singleton_append] at goes'
      exact first.trans goes'
    · rw [Tasks.results?, List.mapM_cons, ends, show children.mapM t.result? = _ from ends']
      rfl

/-- What a call that keeps to the conduct is admitted to do is carried through. -/
theorem Request.Admits.completes {r : Request} {next : r.Answer → Stance → World → Prop}
    (admits : r.Admits .mixed σ w next) (solitary : w.Solitary σ) :
    ∃ σ', (r.complete w).1.Solitary σ' ∧ next (r.complete w).2 σ' (r.complete w).1 := by
  have endures := Request.endures admits solitary
  rcases Request.started World.Solitary.surroundings admits solitary with
    ⟨σ', solitary', awaits⟩ | ⟨a, w', settled, answered, σ', solitary', goes⟩
  · exact endures.awaits awaits solitary'
  · -- The request has its answer at once.
    cases endures with
    | answered polled =>
      obtain ⟨rfl, same⟩ := Prod.mk.inj (polled.symm.trans answered)
      cases same
      exact ⟨σ', solitary', goes⟩
    | waits polled => exact absurd (congrArg Prod.snd (polled.symm.trans answered)) nofun

theorem Lone.ask {r : Request} {next : r.Answer → Prog T α} {a : r.Answer}
    (endures : r.Endures (r.start w.takeTicket.2 w.takeTicket.1).1 (r.start w.takeTicket.2 w.takeTicket.1).2 w' a) :
    ReflTransGen (Lone (Thread.Move t childMove)) ((Prog.ask r next).stretch t w) ((next a).stretch t w') := by
  rw [Prog.stretch]
  generalize w.takeTicket = taken at endures
  obtain ⟨w₁, ticket⟩ := taken
  dsimp only at endures ⊢
  generalize r.start ticket w₁ = begun at endures
  obtain ⟨w₂, wait⟩ := begun
  dsimp only at endures ⊢
  cases r.isSettled wait with
  | false => exact Lone.endures endures next
  | true =>
    cases endures with
    | answered polled => rw [polled]
    | waits polled idles rest =>
      rw [polled]
      exact Lone.endures (.waits polled idles rest) next

/-- A program that keeps to the conduct, alone and with its tasks done one after the other, comes to what running it
gives. -/
theorem Prog.Follows.runs (carries : t.Carries childMove tasks task) {p : Prog T α}
    (follows : p.Follows .mixed tasks σ w Ends) (solitary : w.Solitary σ) :
    (p.run task w).1.Solitary .free ∧ ReflTransGen (Lone (Thread.Move t childMove)) (p.stretch t w)
      ((p.run task w).1, .finished (p.run task w).2) := by
  induction p generalizing σ w with
  | done a =>
    obtain rfl : σ = .free := follows
    exact ⟨solitary, .refl⟩
  | get next ih =>
    obtain ⟨σ', steps, follows'⟩ := follows
    exact ih w follows' (World.Solitary.surroundings.steps steps solitary)
  | set w' next ih =>
    obtain ⟨σ', steps, follows'⟩ := follows
    exact ih follows' (World.Solitary.surroundings.steps steps solitary)
  | fork ts next ih =>
    obtain ⟨rfl, -, allowed, goes⟩ := follows
    obtain ⟨solitary', children, each, ends⟩ := Lone.each carries {} next solitary [] ts allowed
    obtain ⟨solitary'', rest⟩ := ih (runEach task ts w).2 (goes _ _) solitary'
    exact ⟨solitary'', (each.tail (.inl (.join ends))).trans rest⟩
  | ask r next ih =>
    obtain ⟨σ', solitary', follows'⟩ := follows.completes solitary
    obtain ⟨last, rest⟩ := ih _ follows' solitary'
    exact ⟨last, (Lone.ask (Request.endures follows solitary)).trans rest⟩

theorem Visit.carries : Visit.tasks.Carries Strand.Move (Visit.Follows .mixed) Visit.run := by
  intro v w follows solitary
  have none : Tasks.none.Carries (fun _ _ _ _ => False) (fun _ => True) fun none _ => none.elim := fun none => none.elim
  have same : v.run w = v.program.run (fun none _ => none.elim) w :=
    congrArg (fun run => v.program.run run w) (funext fun none => none.elim)
  obtain ⟨solitary', goes⟩ := (follows w).runs none solitary
  rw [← same] at solitary' goes
  exact ⟨solitary', .finished (v.run w).2, .head (.inl .begin) goes, rfl⟩

theorem Call.admitted_mixed (c : Call) : c.Admitted .mixed := by
  cases c <;> exact nofun

/-- A call that nobody disturbs can come to what running it directly gives. -/
theorem World.call_lone (c : Call) (solitary : w.Solitary .free) : (w.call c).1.Solitary .free ∧
    ReflTransGen (Lone CallThread.Move) (w, .ready c.program) ((w.call c).1, .finished (w.call c).2) := by
  have follows := Call.follows c.admitted_mixed w (World.Solitary.surroundings.coherent solitary) nofun
  obtain ⟨solitary', goes⟩ := follows.runs Visit.carries solitary
  exact ⟨solitary', .head (.inl .begin) goes⟩

/-- When all calls to a new engine have come to their end nobody asks anything of it. -/
theorem Scene.Run.solitary {c : Config} (new : w.engine = .ofConfig c) {s : Scene}
    (run : Scene.Run (Call.Admitted .mixed) World.Elsewhere { world := w } s) (finished : s.AllFinished) :
    s.world.Solitary .free := by
  have kept : Kept .mixed fun _ _ => True := ⟨fun _ _ => trivial, fun _ _ _ => trivial⟩
  have bears : Bears World.Elsewhere fun _ _ => True := ⟨id, fun _ _ => trivial⟩
  obtain ⟨st, holders, sound⟩ := (Scene.sound_new new trivial).run kept bears run nofun
  have again : Scene.Sound .mixed (fun _ _ => True) { world := s.world } (fun _ => .free) fun _ => none :=
    sound.again finished nofun trivial
  refine ⟨fun _ => none, ?_⟩
  rw [update_eq_self_iff.mpr rfl]
  exact again.orderly

theorem World.solitary_new {c : Config} (new : w.engine = .ofConfig c) : w.Solitary .free :=
  Scene.Run.solitary new .refl fun _ => nofun

/-! ### Polling a call to its end -/

theorem CallThread.poll_waiting (r : Request) (ticket : Ticket) (wait : r.Wait) (next : r.Answer → Prog Visit α)
    (w : World) : CallThread.poll (.waiting r ticket wait next) w =
      match r.poll wait w with
      | (w, .answered a) => (next a).advance Visit.tasks w
      | (w, .waiting wait) => (w, .waiting r ticket wait next) := rfl

theorem Prog.advance_ask (r : Request) (next : r.Answer → Prog Visit α) (w : World) :
    (ask r next).advance Visit.tasks w = CallThread.poll
      (.waiting r w.takeTicket.2 (r.start w.takeTicket.2 w.takeTicket.1).2 next)
      (r.start w.takeTicket.2 w.takeTicket.1).1 := by
  rw [advance]
  rfl

theorem CallThread.Completes.endures {r : Request} {wait : r.Wait} {a : r.Answer} (endures : r.Endures w wait w' a)
    {next : r.Answer → Prog Visit α} {w'' : World} {b : α}
    (rest : CallThread.Completes World.Idles ((next a).advance Visit.tasks w').1 ((next a).advance Visit.tasks w').2 w'' b) :
    CallThread.Completes World.Idles (CallThread.poll (.waiting r ticket wait next) w).1
      (CallThread.poll (.waiting r ticket wait next) w).2 w'' b := by
  induction endures with
  | answered polled =>
    rw [poll_waiting, polled]
    exact rest
  | waits polled idles others ih =>
    rw [poll_waiting, polled]
    exact .polled rfl idles (ih rest)

/-- A program without tasks that is polled to its end comes to what running it gives. -/
theorem Prog.Follows.completes {p : Prog Visit α} (follows : p.Follows .mixed (fun _ => False) σ w Ends)
    (solitary : w.Solitary σ) : CallThread.Completes World.Idles (p.advance Visit.tasks w).1
      (p.advance Visit.tasks w).2 (p.run Visit.run w).1 (p.run Visit.run w).2 := by
  induction p generalizing σ w with
  | done a => exact .finished
  | get next ih =>
    obtain ⟨σ', steps, follows'⟩ := follows
    exact ih w follows' (World.Solitary.surroundings.steps steps solitary)
  | set w' next ih =>
    obtain ⟨σ', steps, follows'⟩ := follows
    exact ih follows' (World.Solitary.surroundings.steps steps solitary)
  | fork ts next ih =>
    obtain ⟨rfl, -, allowed, goes⟩ := follows
    obtain rfl : ts = [] := List.eq_nil_iff_forall_not_mem.mpr allowed
    have none : (fork [] next).advance Visit.tasks w = (next []).advance Visit.tasks w := by
      simp [advance, Members.pollGroup, Members.pollEach, Tasks.results?]
    rw [none]
    exact ih [] (goes _ _) solitary
  | ask r next ih =>
    obtain ⟨σ', solitary', follows'⟩ := follows.completes solitary
    rw [advance_ask]
    exact CallThread.Completes.endures (Request.endures follows solitary) (ih _ follows' solitary')

/-- A call that does nothing side by side and is polled to its end, with no other under way, comes to what running it
directly gives. -/
theorem Call.Single.runs {c : Call} (single : c.Single) (solitary : w.Solitary .free) :
    Passage.Runs World.Idles { call := c, before := w, after := (w.call c).1, reply := (w.call c).2 } :=
  Prog.Follows.completes
    (single.follows c.admitted_mixed w (World.Solitary.surroundings.coherent solitary) nofun) solitary

end Solitary

end ThresholdAlerts
