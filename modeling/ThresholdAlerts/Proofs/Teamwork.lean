import ThresholdAlerts.Proofs.Evaluations
/-! Calls that have tasks done side by side, under a pact with whoever else is about. Each task is a duty: it has
a pact of its own, which binds it to the other tasks and to the rest of the world. Main statement: a call that
moves in any way keeps its side of the pact, and ends with what its program ensures. -/
namespace ThresholdAlerts

/-- What somebody is to do who works beside others. -/
structure Duty where
  pact : Pact
  post : List Event → World → Prop
  stable : ∀ {events w w'}, post events w → pact.others w w' → post events w'

abbrev Duty.Kept (d : Duty) (w : World) (s : Strand) : Prop :=
  s.Keeps d.pact d.post w

/-- Duties that can be done side by side under a pact, while `I` holds all the time. -/
structure Pact.Shares (pact : Pact) (I : World → Prop) (duties : List Duty) : Prop where
  own : ∀ d ∈ duties, ∀ {w w'}, d.pact.self w w' → pact.self w w'
  outer : ∀ d ∈ duties, ∀ {w w'}, pact.others w w' → d.pact.others w w'
  others : ∀ {w w'}, I w → pact.others w w' → I w'
  holds : ∀ d ∈ duties, ∀ {w w'}, I w → d.pact.self w w' → I w'
  apart : ∀ {i j : Nat} {d d'}, i ≠ j → duties[i]? = some d → duties[j]? = some d' →
    ∀ {w w'}, I w → d.pact.self w w' → d'.pact.others w w'

def Team.dutiful (pact : Pact) : Team Visit :=
  fun visits w post => ∃ I duties, pact.Shares I duties ∧ I w ∧
    List.Forall₂ (fun d v => Duty.Kept d w (Visit.tasks.ready v)) duties visits ∧
    ∀ results w', I w' → List.Forall₂ (fun d events => d.post events w') duties results → post results w'

instance (pact : Pact) : (Team.dutiful pact).Monotone where
  imp := fun ⟨I, duties, shares, here, each, ends⟩ weaker =>
    ⟨I, duties, shares, here, each, fun results w' held done => weaker results w' (ends results w' held done)⟩

def CallThread.Keeps (pact : Pact) (post : α → World → Prop) (w : World) : CallThread α → Prop
  | .ready p => ∃ I : World → Prop, I w ∧ (∀ {w w'}, I w → pact.others w w' → I w') ∧
      ∀ {w}, I w → p.Ensures pact (Team.dutiful pact) w post
  | .finished a => post a w
  | .waiting r _ wait next => ∃ I, I w wait ∧
      r.Guarded pact I fun a w' => (next a).Ensures pact (Team.dutiful pact) w' post
  | .joining strands _ next => ∃ I duties, pact.Shares I duties ∧ I w ∧
      List.Forall₂ (fun d s => Duty.Kept d w s) duties strands ∧
      ∀ results w', I w' → List.Forall₂ (fun d events => d.post events w') duties results →
        (next results).Ensures pact (Team.dutiful pact) w' post

section Calls

variable {pact : Pact} {w w' : World} {post : α → World → Prop}

theorem Prog.Ensures.stretch_call {p : Prog Visit α} (h : p.Ensures pact (Team.dutiful pact) w post) :
    pact.self w (p.stretch Visit.tasks w).1 ∧
      CallThread.Keeps pact post (p.stretch Visit.tasks w).1 (p.stretch Visit.tasks w).2 := by
  refine h.stops ⟨id, fun begun guarded => ⟨_, begun, guarded⟩, fun {w ts next} begun => ?_⟩
  obtain ⟨I, duties, shares, here, each, ends⟩ := begun
  exact ⟨I, duties, shares, here, List.forall₂_map_right_iff.mpr each, ends⟩

/-- One of those that share a duty moves: its own part goes on, and the others see what they may see. -/
theorem Pact.Shares.move {I : World → Prop} {duties : List Duty} {strands : List Strand} {i : Nat} {s s' : Strand}
    (shares : pact.Shares I duties) (here : I w) (each : List.Forall₂ (fun d s => Duty.Kept d w s) duties strands)
    (member : strands[i]? = some s) (move : Strand.Move w s w' s') :
    pact.self w w' ∧ I w' ∧ List.Forall₂ (fun d s => Duty.Kept d w' s) duties (strands.set i s') := by
  obtain ⟨inside, rfl⟩ := List.getElem?_eq_some_iff.mp member
  have there : i < duties.length := each.length_eq ▸ inside
  have known : duties[i]? = some duties[i] := List.getElem?_eq_getElem there
  have mem : duties[i] ∈ duties := List.getElem_mem there
  obtain ⟨own, kept⟩ := Thread.Keeps.move (List.Forall₂.get each there inside) move
  refine ⟨shares.own _ mem own, shares.holds _ mem here own,
    forall₂_set each member (fun d same _ => ?_) fun j d c ne listed stands => ?_⟩
  · obtain rfl := Option.some.inj (known.symm.trans same)
    exact kept
  · exact stands.others d.stable (shares.apart (Ne.symm ne) known listed here own)

theorem CallThread.Keeps.move {c c' : CallThread α} (h : c.Keeps pact post w) (move : CallThread.Move w c w' c') :
    pact.self w w' ∧ c'.Keeps pact post w' := by
  cases move with
  | begin =>
    obtain ⟨I, here, -, ensures⟩ := h
    exact (ensures here).stretch_call
  | resume answered =>
    obtain ⟨I, here, guarded⟩ := h
    obtain ⟨own, goes⟩ := guarded.answers here answered
    obtain ⟨own', keeps⟩ := goes.stretch_call
    exact ⟨pact.goesOn own own', keeps⟩
  | wait waiting =>
    obtain ⟨I, here, guarded⟩ := h
    obtain ⟨own, here'⟩ := guarded.waits here waiting
    exact ⟨own, I, here', guarded⟩
  | child member move =>
    obtain ⟨I, duties, shares, here, each, ends⟩ := h
    obtain ⟨own, here', each'⟩ := shares.move here each member move
    exact ⟨own, I, duties, shares, here', each', ends⟩
  | line line' => exact ⟨pact.still w, h⟩
  | join all =>
    obtain ⟨I, duties, shares, here, each, ends⟩ := h
    exact (ends _ w here (Errand.forall₂_results each all fun _ _ done => done)).stretch_call

theorem CallThread.Keeps.others {c : CallThread α} (h : c.Keeps pact post w)
    (stable : ∀ {a w w'}, post a w → pact.others w w' → post a w') (others : pact.others w w') :
    c.Keeps pact post w' := by
  cases c with
  | ready p =>
    obtain ⟨I, here, kept, ensures⟩ := h
    exact ⟨I, kept here others, kept, ensures⟩
  | finished a => exact stable h others
  | waiting r ticket wait next =>
    obtain ⟨I, here, guarded⟩ := h
    exact ⟨I, guarded.others here others, guarded⟩
  | joining strands line next =>
    obtain ⟨I, duties, shares, here, each, ends⟩ := h
    refine ⟨I, duties, shares, shares.others here others, forall₂_imp_mem each fun d mem s stands => ?_, ends⟩
    exact stands.others d.stable (shares.outer d mem others)

end Calls

end ThresholdAlerts
