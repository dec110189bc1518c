import ScriptedMaze.Proofs.Play.Quiet

/-!
# Runs that nobody disturbs

If those who listen never call back, a run is what its script asks for, made move by move.
What is asked for is a list of directions, each with the number of the line it comes from
(`asked`); a script in batch mode asks from no line.

How far a run gets is up to the world alone (`World.stretch`): to the first move that is
blocked or reaches a flag, and to the last move if there is no such. What it leaves is then
said by folding the moves made (`Replayed`): as many reports, each on the world that its
move met; the world after these moves; and the phase that the last of them calls for.

The run is followed from request to request (`Step`). One request makes the next move that
is asked for, however many lines have to be read to come to it, and what is left of the run
asks for the rest.
-/

namespace ScriptedMaze

/-! ### How far a run gets -/

namespace Outcome

/-- **The run that made the move ends with it.** -/
def ends : Outcome → Bool
  | .blocked => true
  | .moved .flagReached => true
  | .moved _ => false

/-- The phase that a move calls for if it is the last of a run. -/
def phase : Outcome → Phase
  | .blocked => .blocked
  | .moved .flagReached => .finished
  | .moved _ => .completed

theorem verdict_eq_blocked_iff {o : Outcome} : o.verdict = .blocked ↔ o = .blocked := by
  cases o <;> simp [verdict]

theorem ends_iff {o : Outcome} : o.ends = true ↔ o = .blocked ∨ o = .moved .flagReached := by
  rcases o with _ | _ | _ | _ | _ <;> simp [ends]

theorem phase_of_not_ends {o : Outcome} (h : o.ends = false) : o.phase = .completed := by
  rcases o with _ | _ | _ | _ | _
  · cases h
  · rfl
  · rfl
  · rfl
  · cases h

end Outcome

namespace World

variable {w : World} {d : Direction} {ds : List Direction}

/-- The outcomes of moves that are made one after the other. -/
def outcomes (w : World) : List Direction → List Outcome
  | [] => []
  | d :: ds => (w.move d).2 :: outcomes (w.move d).1 ds

/-- **How many moves a run makes**: up to the first that ends it, or all. -/
def stretch (w : World) (ds : List Direction) : Nat :=
  min ((w.outcomes ds).findIdx Outcome.ends + 1) ds.length

/-- The phase that a run ends in: what its last move calls for, if it made any. -/
def lastPhase (w : World) (ds : List Direction) : Phase :=
  ((w.outcomes ds)[w.stretch ds - 1]?).elim .completed Outcome.phase

/-- The report on a move of a run. -/
def moveReport (w : World) (d : Direction) (index : Nat) (line : Option Nat) : Report :=
  { (w.move d).1.reported d.name (w.move d).2.verdict ((w.move d).2.events d w (w.move d).1) with
    index, line }

/-- Each outcome is that of a move in the world after the moves before it. -/
theorem getElem?_outcomes (w : World) (ds : List Direction) (i : Nat) :
    (w.outcomes ds)[i]? = ds[i]?.map fun d => ((w.moves (ds.take i)).move d).2 := by
  induction ds generalizing w i with
  | nil => rfl
  | cons d ds ih =>
    cases i with
    | zero => rfl
    | succ i => exact ih (w.move d).1 i

theorem stretch_cons_of_ends (h : (w.move d).2.ends = true) : w.stretch (d :: ds) = 1 := by
  unfold stretch
  rw [outcomes, List.findIdx_cons, h, List.length_cons]
  exact Nat.min_eq_left (Nat.succ_le_succ (Nat.zero_le _))

theorem stretch_cons (h : (w.move d).2.ends = false) :
    w.stretch (d :: ds) = (w.move d).1.stretch ds + 1 := by
  unfold stretch
  rw [outcomes, List.findIdx_cons, h, List.length_cons]
  exact Nat.succ_min_succ _ _

theorem lastPhase_cons_of_ends (h : (w.move d).2.ends = true) :
    w.lastPhase (d :: ds) = (w.move d).2.phase := by
  unfold lastPhase
  rw [stretch_cons_of_ends h]
  rfl

theorem lastPhase_cons (h : (w.move d).2.ends = false) :
    w.lastPhase (d :: ds) = (w.move d).1.lastPhase ds := by
  unfold lastPhase
  rw [stretch_cons h]
  cases ds with
  | nil => exact Outcome.phase_of_not_ends h
  | cons d' ds =>
    have hpos : 0 < (w.move d).1.stretch (d' :: ds) := by
      unfold stretch
      rw [List.length_cons]
      omega
    obtain ⟨k, hk⟩ := Nat.exists_eq_succ_of_ne_zero (Nat.ne_of_gt hpos)
    rw [hk]
    rfl

/-- In a world that is not finished, a move finishes it if it reaches a flag. -/
theorem finished_move_iff (hfin : w.finished = false) (d : Direction) :
    (w.move d).1.finished = true ↔ (w.move d).2 = .moved .flagReached := by
  rcases w.move_cases d with ⟨-, hm⟩ | ⟨-, -, w', e, hm, hent⟩
  · rw [hm]
    simp [hfin]
  · rw [hm]
    cases hent <;> simp [hfin]

/-- A move that ends no run does not finish the world. -/
theorem finished_move_of_not_ends (hfin : w.finished = false) (h : (w.move d).2.ends = false) :
    (w.move d).1.finished = false := by
  refine eq_false_of_ne_true fun hflag => ?_
  rw [(finished_move_iff hfin d).mp hflag] at h
  cases h

end World

/-! ### What is asked for -/

/-- **The moves that lines ask for**, each with the number of its line. A line that is
rejected asks for none. -/
def asked (limits : Script.Limits) (lines : List (Nat × String)) :
    List (Option Nat × Direction) :=
  lines.flatMap fun (n, line) =>
    ((Script.lineCommands limits line).toOption.getD []).map fun d => (some n, d)

/-- The moves that are left of a run that was begun. -/
def Replay.asks (limits : Script.Limits) (r : Replay) : List (Option Nat × Direction) :=
  r.moves.map (fun d => (r.line, d)) ++ asked limits r.lines

/-- **The moves that a run asks for.** In batch mode they come from no line. -/
def Run.asks (limits : Script.Limits) : Run → List (Option Nat × Direction)
  | batch ds => ds.map fun d => (none, d)
  | live source => asked limits (numberedLines source)
  | suspended r => r.asks limits
  | ended => []

/-- The report on a move as a run gives it away. -/
def Replay.numbered (r : Replay) (res : Report) : Report :=
  { res with index := r.index + 1, line := r.line }

theorem asked_cons (limits : Script.Limits) (n : Nat) (line : String)
    (lines : List (Nat × String)) :
    asked limits ((n, line) :: lines) =
      ((Script.lineCommands limits line).toOption.getD []).map (fun d => (some n, d)) ++
        asked limits lines :=
  List.flatMap_cons

theorem length_asked (limits : Script.Limits) (lines : List (Nat × String)) :
    (asked limits lines).length = movesOfLines limits lines := by
  induction lines with
  | nil => rfl
  | cons numbered lines ih =>
    obtain ⟨n, line⟩ := numbered
    rw [asked_cons, List.length_append, List.length_map, ih, Play.movesOfLines_cons]

/-- A run has as many moves left as it asks for. -/
theorem Run.length_asks (limits : Script.Limits) (run : Run) :
    (run.asks limits).length = run.movesLeft limits := by
  cases run with
  | batch ds => exact List.length_map _
  | live source => exact length_asked limits _
  | suspended r =>
    unfold Run.asks Replay.asks Run.movesLeft
    rw [List.length_append, List.length_map, length_asked]
  | ended => rfl

/-! ### One request -/

/-- **What comes of one request** to a run that asks for a list of moves, in a game that
nobody else touches. -/
inductive Step (limits : Script.Limits) (id index : Nat) (g : Game) :
    List (Option Nat × Direction) → Option Report × Run → Game → Prop
  /-- Nothing is left to do. -/
  | done (s : Status) :
      Step limits id index g [] (none, .ended)
        { g with running := false, phase := .completed, status := s }
  /-- A move is made, and the run ends with it. -/
  | last {line : Option Nat} {d : Direction} {more : List (Option Nat × Direction)} (s : Status)
      (h : (g.world.move d).2.ends = true) :
      Step limits id index g ((line, d) :: more)
        (some (g.world.moveReport d (index + 1) line), .ended)
        { g.moved d with running := false, phase := (g.world.move d).2.phase, status := s }
  /-- A move is made, and the run asks for the rest. -/
  | made {line : Option Nat} {d : Direction} (s : Status) (h : (g.world.move d).2.ends = false)
      {r : Replay} (hid : r.runId = id) (hindex : r.index = index + 1) :
      Step limits id index g ((line, d) :: r.asks limits)
        (some (g.world.moveReport d (index + 1) line), .suspended r)
        { g.moved d with status := s }

namespace Step

variable {limits : Script.Limits} {id index : Nat} {g g' : Game}
  {moves : List (Option Nat × Direction)} {q : Option Report × Run}

/-- A move that is asked for is made and reported. -/
theorem exists_report (h : Step limits id index g moves q g') (hne : moves ≠ []) :
    (∃ res, q.1 = some res) ∧ g'.steps = g.steps + 1 := by
  cases h with
  | done s => exact absurd rfl hne
  | last s h => exact ⟨⟨_, rfl⟩, rfl⟩
  | made s h hid hindex => exact ⟨⟨_, rfl⟩, rfl⟩

/-- A run without a step to give has ended, and so there is no wait to be laid around it. -/
theorem paced (h : Step limits id index g moves q g') (paces : List Pace) :
    Step limits id index g moves
      (q.1, (q.1.elim PacedRun.ended fun _ => ⟨q.2, paces⟩).run) g' := by
  cases h with
  | done s => exact .done s
  | last s h => exact .last s h
  | made s h hid hindex => exact .made s h hid hindex

/-- A game that a run owns is not idle after a request. -/
theorem phase_ne_idle (h : Step limits id index g moves q g') (hg : g.phase = .running) :
    g'.phase ≠ .idle := by
  cases h with
  | done s => exact nofun
  | @last line d more s h =>
    change (g.world.move d).2.phase ≠ .idle
    rcases Outcome.ends_iff.mp h with h | h <;> rw [h] <;> exact nofun
  | made s h hid hindex =>
    change g.phase ≠ .idle
    rw [hg]
    exact nofun

end Step

namespace Play

open Game

variable {σ : Type} {tell : Listener σ} {fit : σ → Prop} {t : Table σ} {r : Replay}
  {limits : Script.Limits}

/-- **A blocked run** ends. -/
theorem succeeds_afterMove_of_blocked (h : tell.StaysWithin fit SameButStatus)
    (ht : fit t.audience) (hid : t.game.runId = r.runId) {res : Report} (d : Direction)
    (rest : List Direction) (hres : res.verdict = .blocked) :
    Succeeds (afterMove tell r d rest res) t fun p t' => fit t'.audience ∧
      p = (some (r.numbered res), .ended) ∧
        ∃ s, t'.game = { t.game with running := false, phase := .blocked, status := s } := by
  unfold afterMove
  simp only [hres, if_true]
  refine (Succeeds.of_on (on_finish _ _ _) rfl).bind (P := fun _ t' => t' = _) ?_
  rintro _ _ rfl
  rw [handedBack_of_eq hid]
  have htold := Within.tellBlocked h r d
    { t with game := { t.game with running := false, phase := .blocked } } ht
  refine htold.bind ?_
  rintro _ t' ⟨ht', s, hs⟩
  exact .pure ⟨ht', by rw [← hres]; rfl, s, hs⟩

/-- **A run at a flag** ends. -/
theorem succeeds_afterMove_of_finished (ht : fit t.audience) (hid : t.game.runId = r.runId)
    {res : Report} (d : Direction) (rest : List Direction) (hres : res.verdict ≠ .blocked)
    (hfin : res.finished = true) :
    Succeeds (afterMove tell r d rest res) t fun p t' => fit t'.audience ∧
      p = (some (r.numbered res), .ended) ∧
        ∃ s, t'.game = { t.game with running := false, phase := .finished, status := s } := by
  unfold afterMove
  simp only [hres, hfin, if_false, if_true]
  refine (Succeeds.of_on (on_finish _ _ _) rfl).bind (P := fun _ t' => t' = _) ?_
  rintro _ _ rfl
  rw [handedBack_of_eq hid]
  exact .pure ⟨ht, by rw [← hfin]; rfl, t.game.status, rfl⟩

/-- **A run makes its move** and ends with it, or goes on. -/
theorem step_advance (h : tell.StaysWithin fit SameButStatus) (ht : fit t.audience)
    (hid : t.game.runId = r.runId) (hc : t.game.cancelled = false)
    (hfin : t.game.world.finished = false) (d : Direction) (rest : List Direction) :
    Succeeds (advance tell r d rest) t fun p t' => fit t'.audience ∧
      Step limits r.runId r.index t.game
        ((r.line, d) :: Replay.asks limits { r with moves := rest }) p t'.game := by
  refine .of_eq (on_advance hid hc)
    ((Succeeds.of_eq (on_perform hfin) (succeeds_makeMove h ht d)).bind ?_)
  rintro res t₁ ⟨hres, ht₁, s, hs⟩
  have hid₁ : t₁.game.runId = r.runId := by rw [hs, ← hid]; rfl
  have hreport : r.numbered res = t.game.world.moveReport d (r.index + 1) r.line := by
    rw [hres, hs]
    rfl
  have hverdict : res.verdict = .blocked ↔ (t.game.world.move d).2 = .blocked := by
    rw [hres]
    exact Outcome.verdict_eq_blocked_iff
  have hfinished : res.finished = true ↔ (t.game.world.move d).2 = .moved .flagReached := by
    rw [hres, hs]
    exact World.finished_move_iff hfin d
  by_cases hblocked : (t.game.world.move d).2 = .blocked
  · refine (succeeds_afterMove_of_blocked h ht₁ hid₁ d rest (hverdict.mpr hblocked)).mono ?_
    rintro _ t' ⟨ht', rfl, s', hs'⟩
    have hgame : t'.game = { t.game.moved d with
        running := false, phase := (t.game.world.move d).2.phase, status := s' } := by
      rw [hs', hs, hblocked]
      rfl
    rw [hgame, hreport]
    exact ⟨ht', .last s' (Outcome.ends_iff.mpr (.inl hblocked))⟩
  · by_cases hflag : (t.game.world.move d).2 = .moved .flagReached
    · refine (succeeds_afterMove_of_finished ht₁ hid₁ d rest (mt hverdict.mp hblocked)
        (hfinished.mpr hflag)).mono ?_
      rintro _ t' ⟨ht', rfl, s', hs'⟩
      have hgame : t'.game = { t.game.moved d with
          running := false, phase := (t.game.world.move d).2.phase, status := s' } := by
        rw [hs', hs, hflag]
        rfl
      rw [hgame, hreport]
      exact ⟨ht', .last s' (Outcome.ends_iff.mpr (.inr hflag))⟩
    · have hends : (t.game.world.move d).2.ends = false :=
        eq_false_of_ne_true fun h => (Outcome.ends_iff.mp h).elim hblocked hflag
      have hstep : Step limits r.runId r.index t.game
          ((r.line, d) :: Replay.asks limits { r with moves := rest })
          (some (r.numbered res), .suspended { r with index := r.index + 1, moves := rest })
          t₁.game := by
        rw [hreport, hs]
        exact .made (r := { r with index := r.index + 1, moves := rest }) s hends rfl rfl
      unfold afterMove
      dsimp only
      rw [if_neg (mt hverdict.mp hblocked), if_neg (mt hfinished.mp hflag)]
      exact .pure ⟨ht₁, hstep⟩

/-- A change of the status does not matter to what a run does. -/
theorem step_of_sameButStatus {id index : Nat} {g g' g'' : Game}
    {moves : List (Option Nat × Direction)} {p : Option Report × Run}
    (h : Step limits id index g' moves p g'') (hg : SameButStatus g g') :
    Step limits id index g moves p g'' := by
  obtain ⟨s, rfl⟩ := hg
  cases h with
  | done s' => exact .done s'
  | last s' h => exact .last s' h
  | made s' h hid hindex => exact Step.made (g := g) s' h hid hindex

/-- **A run reads on** to the next line that asks for a move. -/
theorem step_nextLine (h : tell.StaysWithin fit SameButStatus) (ht : fit t.audience)
    (hid : t.game.runId = r.runId) (hc : t.game.cancelled = false)
    (hfin : t.game.world.finished = false) (hlimits : t.game.rules.limits = limits)
    (lines : List (Nat × String)) :
    Succeeds (nextLine tell r lines) t fun p t' => fit t'.audience ∧
      Step limits r.runId r.index t.game (asked limits lines) p t'.game := by
  induction lines generalizing t with
  | nil =>
    have htold := Within.tellDone h r.mode
      { t with game := t.game.handedBack r.runId .completed } ht
    refine (Succeeds.of_eq (on_complete hid hc) htold).bind ?_
    rintro _ t' ⟨ht', s, hs⟩
    dsimp only at hs
    rw [handedBack_of_eq hid] at hs
    have hstep : Step limits r.runId r.index t.game [] (none, .ended) t'.game := by
      rw [hs]
      exact .done s
    exact .pure ⟨ht', hstep⟩
  | cons numbered lines ih =>
    obtain ⟨n, line⟩ := numbered
    refine .of_eq (on_nextLine hc) ((succeeds_readLine h ht n line).bind ?_)
    rintro ds? t₁ ⟨hds, ht₁, hsame⟩
    have hg := hsame
    obtain ⟨s, hs⟩ := hsame
    have hid₁ : t₁.game.runId = r.runId := by rw [hs, ← hid]
    have hc₁ : t₁.game.cancelled = false := by rw [hs, ← hc]
    have hfin₁ : t₁.game.world.finished = false := by rw [hs, ← hfin]
    have hnext := ih ht₁ hid₁ hc₁ hfin₁ (by rw [hs, ← hlimits])
    rw [asked_cons, ← hlimits, ← hds, hlimits]
    match ds? with
    | none => exact hnext.mono fun p t' h' => ⟨h'.1, step_of_sameButStatus h'.2 hg⟩
    | some [] =>
      exact .of_eq (on_afterLine_nil hid₁)
        (hnext.mono fun p t' h' => ⟨h'.1, step_of_sameButStatus h'.2 hg⟩)
    | some (d :: rest) =>
      exact (step_advance (r := { r with line := some n, lines }) h ht₁ hid₁ hc₁ hfin₁ d rest).mono
        fun p t' h' => ⟨h'.1, step_of_sameButStatus h'.2 hg⟩

/-- **A request to a run that was begun** is answered by the next move. -/
theorem step_suspended (h : tell.StaysWithin fit SameButStatus) (ht : fit t.audience)
    (hid : t.game.runId = r.runId) (hc : t.game.cancelled = false)
    (hfin : t.game.world.finished = false) (hlimits : t.game.rules.limits = limits) :
    Succeeds (next tell (.suspended r)) t fun p t' => fit t'.audience ∧
      Step limits r.runId r.index t.game (r.asks limits) p t'.game := by
  have hresume : Succeeds (resume tell r) t fun p t' => fit t'.audience ∧
      Step limits r.runId r.index t.game (r.asks limits) p t'.game := by
    unfold Replay.asks
    cases hm : r.moves with
    | nil =>
      exact .of_eq (on_resume_of_nil hm hid) (step_nextLine h ht hid hc hfin hlimits r.lines)
    | cons d rest =>
      rw [resume_of_cons hm]
      exact step_advance h ht hid hc hfin d rest
  obtain ⟨p, t', hon, hstep⟩ := hresume
  exact .of_on (on_guarded_of_ok hon) hstep

end Play

/-! ### The whole run -/

/-- **What a run leaves that makes its moves undisturbed**: the moves `asked` for, each with
the number of its line, are folded from the world that the run has found. The run has made
`first` moves before. -/
structure Replayed (g : Game) (moves : List (Option Nat × Direction)) (first : Nat)
    (rs : List Report) (g' : Game) : Prop where
  /-- There are as many reports as moves are made. -/
  length : rs.length = g.world.stretch (moves.map (·.2))
  /-- Each report is on its move in the world after the moves before. -/
  report : ∀ i line d, i < rs.length → moves[i]? = some (line, d) →
    rs[i]? = some ((g.world.moves ((moves.map (·.2)).take i)).moveReport d (first + i + 1) line)
  /-- The game has come to the world after the moves that were made, and no run owns it. -/
  game : ∃ s, g' = { g with
    world := g.world.moves ((moves.map (·.2)).take rs.length)
    steps := g.steps + rs.length
    running := false
    phase := g.world.lastPhase (moves.map (·.2))
    status := s }

namespace Replayed

variable {g g' g'' : Game} {moves : List (Option Nat × Direction)} {first : Nat}
  {rs : List Report} {line : Option Nat} {d : Direction}

theorem done (g : Game) (first : Nat) (s : Status) :
    Replayed g [] first [] { g with running := false, phase := .completed, status := s } where
  length := rfl
  report i _ _ hi := absurd hi (Nat.not_lt_zero i)
  game := ⟨s, rfl⟩

theorem last (moves : List (Option Nat × Direction)) (first : Nat) (line : Option Nat)
    (s : Status) (h : (g.world.move d).2.ends = true) :
    Replayed g ((line, d) :: moves) first [g.world.moveReport d (first + 1) line]
      { g.moved d with running := false, phase := (g.world.move d).2.phase, status := s } where
  length := (World.stretch_cons_of_ends h).symm
  report i line' d' hi hmove := by
    obtain rfl : i = 0 := Nat.lt_one_iff.mp hi
    cases hmove
    rfl
  game := by
    refine ⟨s, ?_⟩
    rw [List.map_cons, World.lastPhase_cons_of_ends h]
    rfl

theorem cons {s : Status} (h : (g.world.move d).2.ends = false) (line : Option Nat)
    (hrest : Replayed { g.moved d with status := s } moves (first + 1) rs g') :
    Replayed g ((line, d) :: moves) first (g.world.moveReport d (first + 1) line :: rs) g' where
  length := by
    rw [List.length_cons, hrest.length, List.map_cons, World.stretch_cons h]
    rfl
  report i line' d' hi hmove := by
    cases i with
    | zero =>
      cases hmove
      rfl
    | succ i =>
      have hreport := hrest.report i line' d' (Nat.lt_of_succ_lt_succ hi) hmove
      rw [show first + 1 + i + 1 = first + (i + 1) + 1 by omega] at hreport
      exact hreport
  game := by
    obtain ⟨s', rfl⟩ := hrest.game
    refine ⟨s', ?_⟩
    rw [List.map_cons, World.lastPhase_cons h, List.length_cons,
      show g.steps + (rs.length + 1) = g.steps + 1 + rs.length by omega]
    rfl

/-- The status does not matter. -/
theorem of_sameButStatus (h : Replayed g' moves first rs g'') (hg : Game.SameButStatus g g') :
    Replayed g moves first rs g'' := by
  obtain ⟨s, rfl⟩ := hg
  exact ⟨h.length, h.report, h.game⟩

theorem then_told (h : Replayed g moves first rs g') (hg : Game.SameButStatus g' g'') :
    Replayed g moves first rs g'' := by
  obtain ⟨s, rfl⟩ := hg
  obtain ⟨s', hs'⟩ := h.game
  refine ⟨h.length, h.report, s, ?_⟩
  rw [hs']

end Replayed

namespace Play

open Game

variable {σ : Type} {tell : Listener σ} {fit : σ → Prop} {t : Table σ}

/-- **A request to a run that was begun** is answered by the next move, after what is owed was
waited for. -/
theorem step_nextPaced (h : tell.StaysWithin fit SameButStatus) (ht : fit t.audience) {r : Replay}
    (hid : t.game.runId = r.runId) (hc : t.game.cancelled = false)
    (hfin : t.game.world.finished = false) (paces : List Pace) :
    Succeeds (nextPaced tell ⟨.suspended r, paces⟩) t fun q t' => fit t'.audience ∧
      Step t.game.rules.limits r.runId r.index t.game (r.asks t.game.rules.limits)
        (q.1, q.2.run) t'.game := by
  obtain ⟨_, t₁, hwaits, ht₁, hsame⟩ := Within.forM (fun q => .await h q) paces t ht
  obtain ⟨s, hs⟩ := hsame
  obtain ⟨_, t', hon, ht', hstep⟩ := step_suspended (r := r) h ht₁
    (by rw [hs]; exact hid) (by rw [hs]; exact hc) (by rw [hs]; exact hfin) (by rw [hs])
  exact .of_on (on_nextPaced hwaits hon) ⟨ht', (step_of_sameButStatus hstep ⟨s, hs⟩).paced _⟩

/-- **All requests to a run**, if the first is answered by the first move that is asked for. What
is done after each step is no matter as long as it keeps within bounds. -/
theorem replayed_take (h : tell.StaysWithin fit SameButStatus) {seen : Report → Play σ Unit}
    (hseen : ∀ res, Within fit SameButStatus (seen res)) (n : Nat) {p : PacedRun} {id index : Nat}
    {g : Game} {moves : List (Option Nat × Direction)} (hn : moves.length < n)
    (hid : g.runId = id) (hc : g.cancelled = false) (hfin : g.world.finished = false)
    (hnext : Succeeds (nextPaced tell p) t fun q t' => fit t'.audience ∧
      Step g.rules.limits id index g moves (q.1, q.2.run) t'.game) :
    Succeeds (take tell seen n p) t fun rs t' => Replayed g moves index rs t'.game := by
  induction n generalizing p t index g moves with
  | zero => exact absurd hn (Nat.not_lt_zero _)
  | succ n ih =>
    refine hnext.bind ?_
    rintro ⟨res?, ⟨run', paces⟩⟩ t₁ ⟨ht₁, hstep⟩
    generalize hg₁ : t₁.game = g₁ at hstep
    cases hstep with
    | done s =>
      have hreplayed := Replayed.done g index s
      rw [← hg₁] at hreplayed
      exact .pure hreplayed
    | @last line d more s hends =>
      have hreplayed := Replayed.last more index line s hends
      rw [← hg₁] at hreplayed
      refine (hseen _ t₁ ht₁).bind fun _ t₂ h₂ => ?_
      -- the run has ended, and what is left of the requests is at most a wait
      have hrest : Succeeds (take tell seen n ⟨.ended, paces⟩) t₂ fun rs t' =>
          rs = [] ∧ SameButStatus t₂.game t'.game := by
        cases n with
        | zero => exact .pure ⟨rfl, refl_of SameButStatus _⟩
        | succ n =>
          obtain ⟨_, t₃, hwaits, -, hsame⟩ := Within.forM (fun q => .await h q) paces t₂ h₂.1
          exact (Succeeds.of_on (on_nextPaced hwaits (on_pure _ _)) ⟨rfl, hsame⟩).bind
            (P := fun q t' => q.1 = none ∧ SameButStatus t₂.game t'.game)
            (by
              rintro ⟨_, _⟩ t' ⟨rfl, hsame⟩
              exact .pure ⟨rfl, hsame⟩)
      refine hrest.bind ?_
      rintro _ t' ⟨rfl, hsame⟩
      exact .pure (hreplayed.then_told (trans_of SameButStatus h₂.2 hsame))
    | @made line d s hends r hid' hindex =>
      subst hid'
      refine (hseen _ t₁ ht₁).bind fun _ t₂ h₂ => ?_
      obtain ⟨s₂, hs₂⟩ := h₂.2
      rw [hg₁] at hs₂
      have hfin₁ := World.finished_move_of_not_ends hfin hends
      have hstep₂ := step_nextPaced (r := r) h h₂.1 (by rw [hs₂]; exact hid)
        (by rw [hs₂]; exact hc) (by rw [hs₂]; exact hfin₁) paces
      rw [hs₂] at hstep₂
      rw [hindex] at hstep₂
      have hrest := ih (g := { g.moved d with status := s₂ }) (Nat.lt_of_succ_lt_succ hn) hid hc
        hfin₁ hstep₂
      exact hrest.bind fun rs t' h' => .pure (h'.cons hends line)

/-- **The first request** takes the game, and is answered by the first move. -/
theorem step_begun (h : tell.StaysWithin fit SameButStatus) (ht : fit t.audience)
    (hidle : t.game.running = false) (hfin : t.game.world.finished = false) {run : Run}
    (hrun : ¬run.Started) :
    Succeeds (next tell run) t fun p t' => fit t'.audience ∧
      Step t.game.rules.limits (t.game.runId + 1) 0 t.game.taken
        (run.asks t.game.rules.limits) p t'.game := by
  have hbegin : Succeeds (begin tell) t fun id? t' =>
      id? = some (t.game.runId + 1) ∧ t' = { t with game := t.game.taken } :=
    .of_on (on_begin hidle hfin) ⟨rfl, rfl⟩
  cases run with
  | batch ds =>
    refine hbegin.bind ?_
    rintro _ _ ⟨rfl, rfl⟩
    refine (Within.precheck h ds { t with game := t.game.taken } ht).bind fun _ t₁ h₁ => ?_
    refine (Within.report h _ _ t₁ h₁.1).bind fun _ t₂ h₂ => ?_
    refine (Within.notice h _ t₂ h₂.1).bind fun _ t₃ h₃ => ?_
    obtain ⟨s, hs⟩ := trans_of SameButStatus (trans_of SameButStatus h₁.2 h₂.2) h₃.2
    have hstep := step_suspended (r := { mode := .batch, runId := t.game.runId + 1, moves := ds })
      h h₃.1 (by rw [hs]; rfl) (by rw [hs]; rfl) (by rw [hs]; exact hfin) (by rw [hs])
    refine hstep.mono fun p t' h' => ⟨h'.1, ?_⟩
    have hasks : Replay.asks t.game.rules.limits
        { mode := .batch, runId := t.game.runId + 1, moves := ds } = ds.map fun d => (none, d) :=
      List.append_nil _
    rw [Run.asks, ← hasks]
    exact step_of_sameButStatus h'.2 ⟨s, hs⟩
  | live source =>
    refine hbegin.bind ?_
    rintro _ _ ⟨rfl, rfl⟩
    refine (Within.report h _ _ { t with game := t.game.taken } ht).bind fun _ t₁ h₁ => ?_
    obtain ⟨s, hs⟩ := h₁.2
    have hstep := step_nextLine
      (r := { mode := .live, runId := t.game.runId + 1, lines := numberedLines source })
      h h₁.1 (by rw [hs]; rfl) (by rw [hs]; rfl) (by rw [hs]; exact hfin) (by rw [hs])
      (numberedLines source)
    exact (hstep.guarded _).mono fun p t' h' =>
      ⟨h'.1, step_of_sameButStatus h'.2 ⟨s, hs⟩⟩
  | suspended r => exact absurd trivial hrun
  | ended => exact absurd trivial hrun

/-- **All requests to a run that was not begun**, and is not waited for yet. -/
theorem replayed_drain (h : tell.StaysWithin fit SameButStatus) (ht : fit t.audience)
    (hidle : t.game.running = false) (hfin : t.game.world.finished = false) {p : PacedRun}
    (hrun : ¬p.run.Started) (hwait : ∀ q ∈ p.paces, q.owed = false) {seen : Report → Play σ Unit}
    (hseen : ∀ res, Within fit SameButStatus (seen res)) :
    Succeeds (drain tell p seen) t fun rs t' =>
      Replayed t.game.taken (p.run.asks t.game.rules.limits) 0 rs t'.game := by
  have hfirst : Succeeds (nextPaced tell p) t fun q t' => fit t'.audience ∧
      Step t.game.rules.limits (t.game.runId + 1) 0 t.game.taken
        (p.run.asks t.game.rules.limits) (q.1, q.2.run) t'.game := by
    obtain ⟨_, t', hon, ht', hstep⟩ := step_begun h ht hidle hfin hrun
    exact .of_on (on_nextPaced (on_forM_await hwait) hon) ⟨ht', hstep.paced _⟩
  refine .game (replayed_take h hseen _ ?_ rfl rfl hfin hfirst)
  rw [PacedRun.movesLeft, Run.length_asks]
  exact Nat.lt_succ_self _

/-- **A script in batch mode** is played as the moves that it asks for. -/
theorem replayed_openBatch (h : tell.Passive) (hidle : t.game.running = false)
    (hfin : t.game.world.finished = false) {source : String} {ds : List Direction}
    (hds : Script.commands t.game.rules.limits source = .ok ds) :
    Succeeds (openBatch tell source >>= fun run => drain tell ⟨run, []⟩) t fun rs t' =>
      Replayed t.game.taken (ds.map fun d => (none, d)) 0 rs t'.game := by
  refine (succeeds_openBatch h hidle hds).bind ?_
  rintro _ t' ⟨rfl, s, hs⟩
  have hdrain := replayed_drain h.staysWithin (t := t') trivial (by rw [hs]; exact hidle)
    (by rw [hs]; exact hfin) (p := ⟨.batch ds, []⟩) id (List.forall_mem_nil _) fun _ => .pure ()
  rw [hs] at hdrain
  exact hdrain.mono fun _ _ h' => h'.of_sameButStatus ⟨s, rfl⟩

/-- **A script in live mode** is played as the moves that its lines ask for. -/
theorem replayed_openLive (h : tell.Passive) (hidle : t.game.running = false)
    (hfin : t.game.world.finished = false) {source : String}
    (hblank : Text.blank source = false) :
    Succeeds (openLive tell source >>= fun run => drain tell ⟨run, []⟩) t fun rs t' =>
      Replayed t.game.taken (asked t.game.rules.limits (numberedLines source)) 0 rs t'.game := by
  refine (Succeeds.of_on (on_openLive hidle hblank) ⟨rfl, rfl⟩).bind
    (P := fun run t' => run = _ ∧ t' = _) ?_
  rintro _ _ ⟨rfl, rfl⟩
  exact replayed_drain (p := ⟨.live source, []⟩) h.staysWithin trivial hidle hfin id
    (List.forall_mem_nil _) fun _ => .pure ()

end Play

end ScriptedMaze
