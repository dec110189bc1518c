import ScriptedMaze.Proofs.Play.Sayings

/-!
# The last words of a run

A run that has lost the game, since someone who listens has started the maze over, does not
notice this at once. It looks at the number of the game only where it goes from one
*passage* of what it says to the next: before it makes a move, behind a line that was
accepted, and before it says that it has ended. A passage that was begun is said to its end
(`Play.Passage`): what is said before the first move, with all lines up to the first that is
accepted; such lines again between two moves; a move, with what came of it; the end.

So each step of a run is in a passage at any moment (`Play.InPassage`): a log of what was
said falls into what was said while the game was the run's own, and the beginning of a
passage, of which some words may still be to come. Each saying takes the first of these
words away, whatever those who listen do in the meantime, and a new passage is begun only
where the game is the run's own.

It follows what a run does from the moment on at which it has lost the game
(`Play.LastWords`). It says the rest of the passage, and no more; while it does so, it
writes nothing to the game but the statuses that it reports; and with that it is over. So the
status that a new start has set does not last where a status was still to be reported in the
passage.
-/

namespace ScriptedMaze

/-! ### Passages -/

/-- The status that a notice reports. -/
def Notice.status? : Notice → Option Status
  | status s => some s
  | _ => none

/-- The lines that a run has not come to yet. -/
def Run.linesLeft : Run → List (Nat × String)
  | live source => numberedLines source
  | suspended r => r.lines
  | _ => []

/-- The number under which a run makes its next step: a new one where it is still to be
begun. There is none if it has ended, has lost the game or cannot be begun. -/
def Run.number? (g : Game) : Run → Option Nat
  | suspended r => if g.runId = r.runId then some r.runId else none
  | ended => none
  | _ => if g.running || g.world.finished then none else some (g.runId + 1)

namespace Play

/-- What is said of lines, up to the first that is accepted. -/
def linesWords (g : Game) : List (Nat × String) → List Notice
  | [] => []
  | (n, line) :: lines => (readLine Listener.recorder n line).words g ++
    match Script.lineCommands g.rules.limits line with
    | .ok _ => []
    | .error _ => linesWords g lines

/-- What a run says of a move that it makes in a world, with what it says if it was
blocked. -/
def moveWords (g : Game) (w : World) (r : Replay) (d : Direction) : List Notice :=
  (tellMove Listener.recorder d w (w.move d).1 (w.move d).2).words g ++
    if (w.move d).2 = .blocked then (tellBlocked Listener.recorder r d).words g else []

/-- **A passage of what a run says** in one step: in its midst the run does not look whether
the game is still its own. -/
inductive Passage (g : Game) (run : Run) : List Notice → Prop
  | nothing : Passage g run []
  /-- What is said when the run has taken the game, and in live mode of the first lines. -/
  | opening : Passage g run ((opening Listener.recorder run).words g ++ linesWords g run.linesLeft)
  /-- What is said of the next lines. -/
  | lines {lines : List (Nat × String)} : lines <:+ run.linesLeft →
      Passage g run (linesWords g lines)
  | move (w : World) (r : Replay) (d : Direction) : Passage g run (moveWords g w r d)
  | stopped (mode : Mode) : Passage g run ((tellStopped Listener.recorder mode).words g)
  | done (mode : Mode) : Passage g run ((tellDone Listener.recorder mode).words g)

/-- **A run is in a passage**: with a number, in a step that began in the game `g`, and with
words still to come. -/
structure InPassage {σ : Type} (log : σ → List Saying) (g : Game) (run : Run) (id : Nat)
    (words : List Notice) (t : Table σ) : Prop where
  le : id ≤ t.game.runId
  rules : t.game.rules = g.rules
  /-- The number of the game was never behind that of the run, and it never goes back. -/
  number : ∀ e ∈ log t.audience, id ≤ e.after.runId ∧ e.after.runId ≤ t.game.runId
  /-- Since the game was lost, the run only tells. -/
  tellsOnly : ∀ earlier e later, log t.audience = earlier ++ e :: later → e.after.runId ≠ id →
    Game.TellsOnly e.after later t.game
  /-- What was said in other passages was said while the game was the run's own. -/
  passage : ∃ done last, log t.audience = done ++ last ∧ (∀ e ∈ done, e.after.runId = id) ∧
    Passage g run (last.map Saying.notice ++ words)

/-- The run was in some passage when it broke off. -/
def BrokenOff {σ : Type} (log : σ → List Saying) (g : Game) (run : Run) (id : Nat)
    (t : Table σ) : Prop :=
  ∃ words, InPassage log g run id words t

/-- **A step of a run is over**: the run has said the whole of its passage, unless it was
told to stop, and if it goes on, then under its number. -/
structure SaidAll {σ : Type} (log : σ → List Saying) (g : Game) (run : Run) (id : Nat)
    (q : Option Report × Run) (t : Table σ) : Prop where
  said : ∃ words, InPassage log g run id words t ∧ (words = [] ∨ t.game.cancelled = true)
  started : q.2.Started
  number : ∀ i, q.2.Carries i → i = id

/-- What is said when a run has taken the game in batch mode. -/
theorem words_opening_batch (g : Game) (ds : List Direction) :
    (opening Listener.recorder (.batch ds)).words g =
      (precheck Listener.recorder ds).words g ++
        [.status ⟨"Executing robot commands...", .info⟩,
          .debug ("Executing " ++ toString ds.length ++ " moves")] := by
  cases ds with
  | nil => rfl
  | cons d ds =>
    unfold words opening precheck
    rw [on_bind, on_bind, on_game]
    dsimp only
    by_cases hb : g.world.blocked (g.world.target d) = true
    · simp only [hb, if_true]
      rfl
    · simp only [hb]
      rfl

variable {σ : Type} {tell : Listener σ} {log : σ → List Saying} {g g' : Game} {run : Run}
  {id : Nat} {words : List Notice} {n : Notice} {t : Table σ} {r : Replay}

namespace InPassage

theorem brokenOff (h : InPassage log g run id words t) : BrokenOff log g run id t :=
  ⟨words, h⟩

/-- A run that has ended says no more. -/
theorem ended (h : InPassage log g run id [] t) (res : Option Report) :
    SaidAll log g run id (res, .ended) t :=
  ⟨⟨[], h, Or.inl rfl⟩, trivial, fun i hi => absurd hi (Run.not_carries_ended i)⟩

/-- A run writes to the game as long as it is its own. -/
theorem write (h : InPassage log g run id words t) (hid : g'.runId = t.game.runId)
    (hrules : g'.rules = t.game.rules) (hlost : t.game.runId ≠ id → g' = t.game) :
    InPassage log g run id words { t with game := g' } where
  le := hid.symm ▸ h.le
  rules := hrules.trans h.rules
  number := by
    rw [hid]
    exact h.number
  tellsOnly := by
    intro earlier e later heq he
    obtain ⟨hle, hle'⟩ := h.number e (by rw [heq]; simp)
    have hsame : g' = t.game := hlost (by omega)
    rw [hsame]
    exact h.tellsOnly earlier e later heq he
  passage := h.passage

theorem handedBack (h : InPassage log g run id words t) (p : Phase) :
    InPassage log g run id words { t with game := t.game.handedBack id p } :=
  h.write Game.runId_handedBack Game.rules_handedBack Game.handedBack_of_ne

theorem released (h : InPassage log g run id words t) :
    InPassage log g run id words { t with game := t.game.released id } := by
  rw [Game.released_eq]
  split
  · exact h.handedBack .cancelled
  · exact h

/-- **A new passage begins** where the game is the run's own. -/
theorem begins {words' : List Notice} (h : InPassage log g run id words t)
    (hid : t.game.runId = id) (hp : Passage g run words') :
    InPassage log g run id words' t where
  le := h.le
  rules := h.rules
  number := h.number
  tellsOnly := h.tellsOnly
  passage := by
    refine ⟨log t.audience, [], (List.append_nil _).symm, fun e he => ?_, hp⟩
    obtain ⟨hle, hle'⟩ := h.number e he
    omega

section Heard

variable (hlog : tell.Logs log) (htell : tell.MayFail)

include hlog htell

/-- **One saying** takes the first word away, whatever those who hear it do. -/
theorem hear (h : InPassage log g run id (n :: words) t) :
    InPassage log g run id words ((tell n).on { t with game := t.game.announcing n }).2 := by
  have hnote := hlog n { t with game := t.game.announcing n }
  have huntaken := htell.untaken n { t with game := t.game.announcing n }
  generalize ((tell n).on { t with game := t.game.announcing n }).2 = t' at hnote huntaken ⊢
  have hle : t.game.runId ≤ t'.game.runId := by simpa using huntaken.number
  constructor
  case le => exact h.le.trans hle
  case rules =>
    rw [huntaken.rules, Game.rules_announcing]
    exact h.rules
  case number =>
    rw [hnote]
    intro e he
    rcases List.mem_append.mp he with he | he
    · obtain ⟨hid, hnow⟩ := h.number e he
      exact ⟨hid, hnow.trans hle⟩
    · obtain rfl := List.mem_singleton.mp he
      exact ⟨h.le.trans hle, le_rfl⟩
  case tellsOnly =>
    intro earlier e later heq he
    rw [hnote] at heq
    rcases List.eq_nil_or_concat later with rfl | ⟨later, x, rfl⟩
    · obtain ⟨-, hlast⟩ := List.append_inj' heq rfl
      cases hlast
      exact rfl
    · rw [List.concat_eq_append, ← List.cons_append, ← List.append_assoc] at heq
      obtain ⟨hold, hlast⟩ := List.append_inj' heq rfl
      cases hlast
      rw [List.concat_eq_append]
      exact (h.tellsOnly earlier e later hold he).concat rfl
  case passage =>
    obtain ⟨done, last, heq, hdone, hp⟩ := h.passage
    refine ⟨done, last ++ [⟨n, t.game.announcing n, t'.game⟩], ?_, hdone, ?_⟩
    · rw [hnote, ← List.append_assoc, ← heq]
    · rw [List.map_append, List.append_assoc]
      exact hp

theorem notice (hn : ∀ s, n ≠ .status s) (h : InPassage log g run id (n :: words) t) :
    Goes (tell n) t (fun _ => InPassage log g run id words) (BrokenOff log g run id) := by
  have hsame : t.game.announcing n = t.game := by
    cases n with
    | status s => exact absurd rfl (hn s)
    | cell | robot | debug | pause => rfl
  have hear := h.hear hlog htell
  rw [hsame] at hear
  exact .of_always (fun _ => hear) hear.brokenOff

theorem report {text : String} {severity : Severity}
    (h : InPassage log g run id (.status ⟨text, severity⟩ :: words) t) :
    Goes (report tell text severity) t (fun _ => InPassage log g run id words)
      (BrokenOff log g run id) := by
  have hear := h.hear hlog htell
  exact .modifyGame (.of_always (fun _ => hear) hear.brokenOff)

/-! ### What a run says -/

theorem tellStopped (mode : Mode)
    (h : InPassage log g run id ((tellStopped Listener.recorder mode).words g ++ words) t) :
    Goes (tellStopped tell mode) t (fun _ => InPassage log g run id words)
      (BrokenOff log g run id) := by
  cases mode with
  | live => exact report hlog htell h
  | batch => exact report hlog htell h

theorem tellDone (mode : Mode)
    (h : InPassage log g run id ((tellDone Listener.recorder mode).words g ++ words) t) :
    Goes (tellDone tell mode) t (fun _ => InPassage log g run id words)
      (BrokenOff log g run id) := by
  cases mode with
  | live => exact report hlog htell h
  | batch => exact report hlog htell h

theorem tellBlocked (d : Direction)
    (h : InPassage log g run id ((tellBlocked Listener.recorder r d).words g ++ words) t) :
    Goes (tellBlocked tell r d) t (fun _ => InPassage log g run id words)
      (BrokenOff log g run id) := by
  obtain ⟨mode, i, index, line, moves, lines⟩ := r
  cases mode with
  | batch => exact report hlog htell h
  | live =>
    cases line with
    | none => exact report hlog htell h
    | some k => exact report hlog htell h

theorem precheck (hw : t.game.world = g.world) (ds : List Direction)
    (h : InPassage log g run id ((precheck Listener.recorder ds).words g ++ words) t) :
    Goes (precheck tell ds) t (fun _ => InPassage log g run id words)
      (BrokenOff log g run id) := by
  cases ds with
  | nil => exact .pure h
  | cons d ds =>
    unfold Play.words Play.precheck at h
    rw [on_bind, on_game] at h
    refine .game ?_
    rw [hw]
    dsimp only at h ⊢
    split
    · rename_i hb
      rw [if_pos hb] at h
      exact .bind (notice hlog htell nofun h) fun _ _ h₁ => notice hlog htell nofun h₁
    · rename_i hb
      rw [if_neg hb] at h
      exact .pure h

/-- What is said when a run has taken the game. -/
theorem opening (hw : t.game.world = g.world)
    (h : InPassage log g run id ((opening Listener.recorder run).words g ++ words) t) :
    Goes (opening tell run) t (fun _ => InPassage log g run id words)
      (BrokenOff log g run id) := by
  cases run with
  | batch ds =>
    rw [words_opening_batch, List.append_assoc] at h
    refine .bind (precheck hlog htell hw ds h) fun _ _ h₁ => ?_
    exact .bind (report hlog htell h₁) fun _ _ h₂ => notice hlog htell nofun h₂
  | live source => exact report hlog htell h
  | suspended r => exact .pure h
  | ended => exact .pure h

/-- What reading a line comes to. -/
theorem readLine (k : Nat) (line : String)
    (h : InPassage log g run id ((readLine Listener.recorder k line).words g ++ words) t) :
    Goes (readLine tell k line) t
      (fun ds? t' => ds? = (Script.lineCommands g.rules.limits line).toOption ∧
        InPassage log g run id words t')
      (BrokenOff log g run id) := by
  unfold Play.words Play.readLine at h
  rw [on_bind, on_game] at h
  refine .game ?_
  rw [h.rules]
  dsimp only at h ⊢
  cases hf : Script.lineCommands g.rules.limits line with
  | error f =>
    rw [hf] at h
    refine .bind (report hlog htell h) fun _ _ h₁ => ?_
    exact .bind (notice hlog htell nofun h₁) fun _ _ h₂ => .pure ⟨rfl, h₂⟩
  | ok ds =>
    rw [hf] at h
    dsimp only at h ⊢
    split
    · rename_i hds
      rw [if_pos hds] at h
      exact .bind (report hlog htell h) fun _ _ h₁ => .pure ⟨rfl, h₁⟩
    · rename_i hds
      rw [if_neg hds] at h
      split
      · rename_i hblank
        rw [if_pos hblank] at h
        exact .bind (notice hlog htell nofun h) fun _ _ h₁ => .pure ⟨rfl, h₁⟩
      · rename_i hblank
        rw [if_neg hblank] at h
        exact .pure ⟨rfl, h⟩

/-- What is said of the cell that was entered. -/
theorem announce (p : Point) (e : Effect)
    (h : InPassage log g run id ((announce Listener.recorder p e).words g ++ words) t) :
    Goes (announce tell p e) t (fun _ => InPassage log g run id words)
      (BrokenOff log g run id) := by
  cases e with
  | none => exact .pure h
  | keyCollected =>
    refine .bind (notice hlog htell nofun h) fun _ _ h₁ => ?_
    refine .bind (report hlog htell h₁) fun _ _ h₂ => ?_
    exact .bind (notice hlog htell nofun h₂) fun _ _ h₃ => .pure h₃
  | doorOpened =>
    refine .bind (notice hlog htell nofun h) fun _ _ h₁ => ?_
    refine .bind (report hlog htell h₁) fun _ _ h₂ => ?_
    exact .bind (notice hlog htell nofun h₂) fun _ _ h₃ => .pure h₃
  | flagReached =>
    refine .game ?_
    rw [h.rules]
    refine .bind (report hlog htell h) fun _ _ h₁ => ?_
    exact .bind (notice hlog htell nofun h₁) fun _ _ h₂ => .pure h₂

/-- What is said of a move. -/
theorem tellMove (d : Direction) (w w' : World) (o : Outcome)
    (h : InPassage log g run id
      ((tellMove Listener.recorder d w w' o).words g ++ words) t) :
    Goes (tellMove tell d w w' o) t
      (fun res t' => res.verdict = o.verdict ∧ InPassage log g run id words t')
      (BrokenOff log g run id) := by
  cases o with
  | blocked =>
    exact .bind (notice hlog htell nofun h) fun _ _ h₁ => .of_on (on_conclude _ _ _ _) ⟨rfl, h₁⟩
  | moved e =>
    refine .bind (P := fun _ => InPassage log g run id
      ((Play.announce Listener.recorder w'.robot e).words g ++ .robot w'.robot :: words)) ?_ ?_
    · refine notice hlog htell nofun ?_
      cases e <;> exact h
    · intro _ _ h₁
      refine .bind (announce hlog htell _ _ h₁) fun _ _ h₂ => ?_
      exact .bind (notice hlog htell nofun h₂) fun _ _ h₃ => .of_on (on_conclude _ _ _ _) ⟨rfl, h₃⟩

/-! ### The steps of a run -/

/-- **A move** is a passage of its own. -/
theorem perform (h : InPassage log g run id [] t) (hid : t.game.runId = id) (r : Replay)
    (d : Direction) :
    Goes (perform tell (.toward d)) t
      (fun res => InPassage log g run id
        (if res.verdict = .blocked then (Play.tellBlocked Listener.recorder r d).words g else []))
      (BrokenOff log g run id) := by
  cases hfin : t.game.world.finished with
  | true => exact .of_eq (on_perform_of_finished hfin) (.of_on (on_conclude _ _ _ _) h)
  | false =>
    refine .of_eq ((on_perform hfin).trans (on_makeMove tell d t)) ?_
    have hmoved : InPassage log g run id [] { t with game := t.game.moved d } :=
      h.write rfl rfl fun hne => absurd hid hne
    have hsaid := hmoved.begins hid (.move t.game.world r d)
    refine (tellMove hlog htell d _ _ _ hsaid).imp ?_
    rintro res t' ⟨hres, h'⟩
    rw [hres]
    cases ho : (t.game.world.move d).2 with
    | blocked => simpa only [Outcome.verdict, ho, if_true] using h'
    | moved e => simpa only [Outcome.verdict, ho, reduceCtorEq, if_false] using h'

theorem stop (h : InPassage log g run id [] t) (hid : t.game.runId = id) (hr : r.runId = id) :
    Goes (stop tell r) t (fun _ => InPassage log g run id []) (BrokenOff log g run id) := by
  subst hr
  have hback := h.handedBack .cancelled
  have hsaid := hback.begins (Game.runId_handedBack.trans hid) (.stopped r.mode)
  exact .of_eq (on_stop tell r t) (tellStopped hlog htell r.mode (by simpa using hsaid))

/-- **The end of a run** is a passage of its own. -/
theorem complete (h : InPassage log g run id words t)
    (hend : words = [] ∨ t.game.cancelled = true) (hr : r.runId = id) :
    Goes (complete tell r) t (fun _ => SaidAll log g run id (none, .ended))
      (BrokenOff log g run id) := by
  subst hr
  by_cases hid : t.game.runId = r.runId
  · cases hc : t.game.cancelled with
    | true =>
      refine .of_eq (on_complete_of_cancelled hid hc) ?_
      exact (stop hlog htell (h.begins hid .nothing) hid rfl).imp fun _ _ h' => h'.ended none
    | false =>
      have hback := h.handedBack .completed
      have hsaid := hback.begins (Game.runId_handedBack.trans hid) (.done r.mode)
      refine .of_eq (on_complete hid hc) ?_
      exact (tellDone hlog htell r.mode (by simpa using hsaid)).imp fun _ _ h' => h'.ended none
  · refine .of_on (on_complete_of_ne hid) ⟨⟨words, h, hend⟩, trivial, fun i hi => ?_⟩
    exact absurd hi (Run.not_carries_ended i)

/-- What a run does with the report on a move. -/
theorem afterMove (d : Direction) (rest : List Direction) (res : Report)
    (h : InPassage log g run id
      (if res.verdict = .blocked then (Play.tellBlocked Listener.recorder r d).words g else []) t)
    (hr : r.runId = id) :
    Goes (afterMove tell r d rest res) t (SaidAll log g run id) (BrokenOff log g run id) := by
  subst hr
  unfold Play.afterMove
  dsimp only
  split
  · rename_i hb
    rw [if_pos hb] at h
    have hback := h.handedBack .blocked
    refine .bind (P := fun _ => InPassage log g run r.runId _) (.of_on (on_finish _ _ _) hback)
      fun _ t₁ h₁ => ?_
    refine .bind (P := fun _ => InPassage log g run r.runId [])
      (tellBlocked hlog htell d (by simpa using h₁)) fun _ t₂ h₂ => ?_
    exact .pure (h₂.ended _)
  · rename_i hb
    rw [if_neg hb] at h
    split
    · have hback := h.handedBack .finished
      refine .bind (P := fun _ => InPassage log g run r.runId _) (.of_on (on_finish _ _ _) hback)
        fun _ t₁ h₁ => ?_
      exact .pure (h₁.ended _)
    · refine .pure ⟨⟨[], h, Or.inl rfl⟩, trivial, fun i hi => ?_⟩
      exact hi.eq (Run.carries_suspended _)

/-- **The step at a move**: the run looks at the number of the game before it begins. -/
theorem advance (h : InPassage log g run id [] t) (hr : r.runId = id) (d : Direction)
    (rest : List Direction) :
    Goes (advance tell r d rest) t (SaidAll log g run id) (BrokenOff log g run id) := by
  subst hr
  by_cases hid : t.game.runId = r.runId
  · cases hc : t.game.cancelled with
    | true =>
      refine .of_eq (on_advance_of_cancelled hid hc) ?_
      exact .bind (stop hlog htell h hid rfl) fun _ _ h₁ => .pure (h₁.ended none)
    | false =>
      refine .of_eq (on_advance hid hc) ?_
      exact .bind (perform hlog htell h hid r d) fun res _ h₁ =>
        afterMove hlog htell d rest res h₁ rfl
  · exact .of_on (on_advance_of_ne hid) (h.ended none)

/-- **The step at the lines to come.** Lines that are rejected are one passage with the first
that is accepted; the run looks at the number of the game only behind that one. -/
theorem nextLine (lines : List (Nat × String)) (hlines : lines <:+ run.linesLeft)
    (h : InPassage log g run id (linesWords g lines) t) (hr : r.runId = id) :
    Goes (nextLine tell r lines) t (SaidAll log g run id) (BrokenOff log g run id) := by
  induction lines generalizing t with
  | nil => exact .bind (complete hlog htell h (Or.inl rfl) hr) fun _ _ h₁ => .pure h₁
  | cons numbered lines ih =>
    obtain ⟨n, line⟩ := numbered
    have hbelow : lines <:+ run.linesLeft := (List.suffix_cons _ _).trans hlines
    cases hc : t.game.cancelled with
    | true =>
      refine .of_eq (on_nextLine_of_cancelled hc) ?_
      exact .bind (complete hlog htell h (Or.inr hc) hr) fun _ _ h₁ => .pure h₁
    | false =>
      refine .of_eq (on_nextLine hc) (.bind (readLine hlog htell n line h) ?_)
      rintro ds? t' ⟨rfl, h'⟩
      cases hf : Script.lineCommands g.rules.limits line with
      | error f =>
        rw [hf] at h'
        exact ih hbelow h'
      | ok ds =>
        rw [hf] at h'
        match ds with
        | [] =>
          by_cases hid : t'.game.runId = r.runId
          · refine .of_eq (on_afterLine_nil hid) ?_
            exact ih hbelow (h'.begins (hid.trans hr) (.lines hbelow))
          · exact .of_on (on_afterLine_nil_of_ne hid) (h'.ended none)
        | d :: rest => exact advance (r := { r with line := some n, lines }) hlog htell h' hr d rest

/-- **The step of a run that was begun.** -/
theorem resume (h : InPassage log g run id [] t) (hr : r.runId = id)
    (hlines : r.lines <:+ run.linesLeft) :
    Goes (resume tell r) t (SaidAll log g run id) (BrokenOff log g run id) := by
  cases hm : r.moves with
  | cons d rest =>
    rw [resume_of_cons hm]
    exact advance hlog htell h hr d rest
  | nil =>
    by_cases hid : t.game.runId = r.runId
    · refine .of_eq (on_resume_of_nil hm hid) ?_
      exact nextLine hlog htell r.lines hlines (h.begins (hid.trans hr) (.lines hlines)) hr
    · exact .of_on (on_resume_of_ne hid) (h.ended none)

/-- The first step of a run. -/
theorem onset (h : InPassage log g run id (linesWords g run.linesLeft) t)
    (hrun : ¬run.Started) :
    Goes (onset tell id run) t (SaidAll log g run id) (BrokenOff log g run id) := by
  cases run with
  | batch ds =>
    exact resume (r := { mode := .batch, runId := id, moves := ds }) hlog htell h rfl
      List.suffix_rfl
  | live source =>
    exact nextLine (r := { mode := .live, runId := id, lines := numberedLines source }) hlog htell
      _ List.suffix_rfl h rfl
  | suspended r => exact absurd trivial hrun
  | ended => exact absurd trivial hrun

end Heard

end InPassage

/-- A run is in its first passage before it has said anything. -/
theorem InPassage.first (hfresh : log t.audience = []) (hle : id ≤ t.game.runId)
    (hrules : t.game.rules = g.rules) (hp : Passage g run words) :
    InPassage log g run id words t where
  le := hle
  rules := hrules
  number := by
    rw [hfresh]
    exact List.forall_mem_nil _
  tellsOnly := by
    rw [hfresh]
    intro earlier e later heq
    exact absurd heq.symm (by simp)
  passage := ⟨[], [], hfresh, List.forall_mem_nil _, hp⟩

/-- **Each step of a run is in a passage at any moment.** -/
theorem saidAll_next (hlog : tell.Logs log) (htell : tell.MayFail)
    (hfresh : log t.audience = []) (hnumber : run.number? t.game = some id) :
    Goes (next tell run) t (SaidAll log t.game run id) (BrokenOff log t.game run id) := by
  have hfail (t' : Table σ) : BrokenOff log t.game run id t' →
      BrokenOff log t.game run id { t' with game := t'.game.released id } := by
    rintro ⟨words, h⟩
    exact ⟨words, h.released⟩
  by_cases hrun : run.Started
  · cases run with
    | suspended r =>
      obtain ⟨hid, rfl⟩ : t.game.runId = r.runId ∧ r.runId = id := by
        simpa [Run.number?] using hnumber
      have h : InPassage log t.game (.suspended r) r.runId [] t :=
        .first hfresh hid.ge rfl .nothing
      exact (h.resume hlog htell rfl List.suffix_rfl).guarded hfail
    | ended => cases hnumber
    | batch ds => exact hrun.elim
    | live source => exact hrun.elim
  · obtain ⟨hidle, hfin, rfl⟩ : t.game.running = false ∧ t.game.world.finished = false ∧
        t.game.runId + 1 = id := by
      cases run with
      | batch ds => simpa [Run.number?, and_assoc] using hnumber
      | live source => simpa [Run.number?, and_assoc] using hnumber
      | suspended r => exact absurd trivial hrun
      | ended => cases hnumber
    have h : InPassage log t.game run (t.game.runId + 1) _ { t with game := t.game.taken } :=
      .first hfresh le_rfl rfl .opening
    refine .of_eq (on_next_of_idle hrun hidle hfin) ?_
    refine .bind (h.opening hlog htell rfl) fun _ t₁ h₁ => ?_
    exact (h₁.onset hlog htell hrun).guarded hfail

/-! ### Runs that have lost the game -/

/-- Where the game was lost, some words of the passage were said before, and some after. -/
theorem InPassage.split {earlier later : List Saying} {e : Saying}
    (h : InPassage log g run id words t) (hsaid : log t.audience = earlier ++ e :: later)
    (he : e.after.runId ≠ id) :
    ∃ front, front <:+ earlier ∧
      Passage g run ((front ++ e :: later).map Saying.notice ++ words) := by
  obtain ⟨done, last, heq, hdone, hp⟩ := h.passage
  rw [hsaid, eq_comm, List.append_eq_append_iff] at heq
  rcases heq with ⟨front, rfl, rfl⟩ | ⟨own, rfl, heq⟩
  · exact ⟨front, List.suffix_append _ _, hp⟩
  · cases own with
    | nil =>
      rw [List.nil_append] at heq
      exact ⟨[], List.nil_suffix, by rwa [List.nil_append, heq]⟩
    | cons x own =>
      -- what was said in other passages was said while the game was the run's own
      obtain ⟨rfl, -⟩ := List.cons.inj heq
      exact absurd (hdone e (by simp)) he

theorem InPassage.lost {earlier later : List Saying} {e : Saying}
    (h : InPassage log g run id words t) (hsaid : log t.audience = earlier ++ e :: later)
    (he : e.after.runId ≠ id) : id < e.after.runId ∧ e.after.runId ≤ t.game.runId := by
  obtain ⟨hle, hle'⟩ := h.number e (by rw [hsaid]; simp)
  exact ⟨Nat.lt_of_le_of_ne hle he.symm, hle'⟩

/-- A run that has lost the game makes no move of a line. -/
theorem on_afterLine_some_of_ne {n : Nat} {lines : List (Nat × String)} {ds : List Direction}
    (h : t.game.runId ≠ r.runId) :
    (afterLine tell r n lines (some ds)).on t = (.ok (none, .ended), t) := by
  cases ds with
  | nil => exact on_afterLine_nil_of_ne h
  | cons d rest => exact on_advance_of_ne (r := { r with line := some n, lines }) h

/-- **A run that has lost the game reads no line below the first that is accepted.** -/
theorem on_nextLine_append (htell : tell.MayFail) (hlost : r.runId < t.game.runId)
    {lines : List (Nat × String)} (below : List (Nat × String))
    (haccepted : ∃ l ∈ lines,
      (Script.lineCommands t.game.rules.limits l.2).toOption.isSome = true) :
    (nextLine tell r (lines ++ below)).on t = (nextLine tell r lines).on t := by
  induction lines generalizing t with
  | nil =>
    obtain ⟨l, hl, -⟩ := haccepted
    cases hl
  | cons numbered lines ih =>
    obtain ⟨n, line⟩ := numbered
    rw [List.cons_append]
    cases hc : t.game.cancelled with
    | true => rw [on_nextLine_of_cancelled hc, on_nextLine_of_cancelled hc]
    | false =>
      have hread := comes_readLine htell (refl_of Game.Untaken t.game) n line
      rw [on_nextLine hc, on_nextLine hc, on_bind, on_bind]
      unfold Comes at hread
      generalize (readLine tell n line).on t = p at hread
      obtain ⟨f | ds?, t'⟩ := p
      · rfl
      · obtain ⟨hds, huntaken⟩ := hread
        have hlost' : t'.game.runId ≠ r.runId := by
          have := huntaken.number
          omega
        match ds? with
        | none =>
          refine ih (Nat.lt_of_lt_of_le hlost huntaken.number) ?_
          obtain ⟨l, hl, hsome⟩ := haccepted
          rcases List.mem_cons.mp hl with rfl | hl
          · rw [← hds] at hsome
            cases hsome
          · exact ⟨l, hl, by rwa [huntaken.rules]⟩
        | some ds =>
          dsimp only
          rw [on_afterLine_some_of_ne hlost', on_afterLine_some_of_ne hlost']

/-- **What a run still does once it has lost the game**: it said the words in `earlier`, and
when the last word `e` was heard the game was no more its own. -/
structure LastWords (tell : Listener σ) (run : Run) (id : Nat) (t : Table σ)
    (earlier : List Saying) (e : Saying) (later : List Saying) : Prop where
  /-- The run says the rest of its passage, and no more. There may be a `rest` that it does
  not say, if it fails or is told to stop. -/
  passage : ∃ front rest, front <:+ earlier ∧
    Passage t.game run ((front ++ e :: later).map Saying.notice ++ rest) ∧
    (rest = [] ∨ (∃ f, ((next tell run).on t).1 = .error f) ∨
      ((next tell run).on t).2.game.cancelled = true)
  /-- It writes nothing but the statuses that it reports. -/
  tellsOnly : Game.TellsOnly e.after later ((next tell run).on t).2.game
  /-- Of the lines to come it reads none below the first that is accepted. -/
  unread : ∀ (r : Replay) (u : Table σ) (lines below : List (Nat × String)), r.runId = id →
    e.after.runId ≤ u.game.runId →
    (∃ l ∈ lines, (Script.lineCommands u.game.rules.limits l.2).toOption.isSome = true) →
    (nextLine tell r (lines ++ below)).on u = (nextLine tell r lines).on u
  /-- With that it is over, whatever becomes of the game. -/
  ended : ∀ q, ((next tell run).on t).1 = .ok q → ∀ u : Table σ,
    ((next tell run).on t).2.game.runId ≤ u.game.runId →
    (next tell q.2).on u = (.ok (none, .ended), u)

/-- **A run that loses the game in the middle of a step says the passage that it is in to its
end, and does nothing more.** -/
theorem lastWords_of_superseded (hlog : tell.Logs log) (htell : tell.MayFail)
    (hfresh : log t.audience = []) (hnumber : run.number? t.game = some id)
    {earlier later : List Saying} {e : Saying}
    (hsaid : log ((next tell run).on t).2.audience = earlier ++ e :: later)
    (he : e.after.runId ≠ id) : LastWords tell run id t earlier e later := by
  have hstep := saidAll_next hlog htell hfresh hnumber
  obtain ⟨words, h, hend⟩ : ∃ words, InPassage log t.game run id words ((next tell run).on t).2 ∧
      (words = [] ∨ (∃ f, ((next tell run).on t).1 = .error f) ∨
        ((next tell run).on t).2.game.cancelled = true) := by
    unfold Goes at hstep
    generalize (next tell run).on t = p at hstep ⊢
    obtain ⟨f | q, t'⟩ := p
    · obtain ⟨words, h⟩ := hstep
      exact ⟨words, h, .inr (.inl ⟨f, rfl⟩)⟩
    · obtain ⟨words, h, hend⟩ := hstep.said
      exact ⟨words, h, hend.imp_right .inr⟩
  obtain ⟨front, hfront, hp⟩ := h.split hsaid he
  obtain ⟨hlost, hle⟩ := h.lost hsaid he
  constructor
  case passage => exact ⟨front, words, hfront, hp, hend⟩
  case tellsOnly => exact h.tellsOnly earlier e later hsaid he
  case unread =>
    intro r u lines below hr hu haccepted
    exact on_nextLine_append htell (by omega) below haccepted
  case ended =>
    intro q hq u hu
    unfold Goes at hstep
    rw [show (next tell run).on t = (.ok q, ((next tell run).on t).2) from Prod.ext hq rfl] at hstep
    refine on_next_of_lost hstep.started fun hi => ?_
    have hsame := hstep.number _ hi
    omega

/-- A new game, and an alarm that starts it over when the player is next told something. -/
def alarmed : Table (Journal × List Saying) :=
  ⟨(Game.new Journal.hear {} Preset.easy.maze {}).2.game,
    { alarms := [⟨.status, 1, .reset⟩] }, []⟩

/-- The run takes the game under the number 2 and loses it at once, to the number 3; then it
comes to its line. -/
theorem exists_said_alarmed : ∃ e e' : Saying,
    ((next Journal.hear.logging (.live "moveRight();")).on alarmed).2.audience.2 = [e, e'] ∧
      e.after.runId = 3 ∧ e'.notice.status? = some ⟨"Line 1: moveRight();", .info⟩ := by
  have hsaid : (((next Journal.hear.logging (.live "moveRight();")).on alarmed).2.audience.2.map
      fun e => (e.after.runId, e.notice.status?)) =
        [(3, some ⟨"Live mode: executing lines...", .info⟩),
          (3, some ⟨"Line 1: moveRight();", .info⟩)] := by
    decide +kernel
  obtain ⟨e, es, hes, he, htail⟩ := List.map_eq_cons_iff.mp hsaid
  obtain ⟨e', es, rfl, he', hnil⟩ := List.map_eq_cons_iff.mp htail
  obtain rfl := List.map_eq_nil_iff.mp hnil
  exact ⟨e, e', hes, congrArg Prod.fst he, congrArg Prod.snd he'⟩

theorem number?_alarmed : Run.number? alarmed.game (.live "moveRight();") = some 2 := by
  decide +kernel

/-- **A run may report a status after it has lost the game.** -/
theorem not_forall_silent_of_superseded :
    ¬∀ (j : Journal) (run : Run) (id : Nat) (t : Table (Journal × List Saying))
      (earlier later : List Saying) (e : Saying),
      t = ⟨(Game.new Journal.hear {} Preset.easy.maze {}).2.game, j, []⟩ →
      run.number? t.game = some id →
      ((next Journal.hear.logging run).on t).2.audience.2 = earlier ++ e :: later →
      e.after.runId ≠ id → ∀ e' ∈ later, e'.notice.status? = none := by
  intro h
  obtain ⟨e, e', hsaid, he, he'⟩ := exists_said_alarmed
  have hnone := h _ _ 2 alarmed [] [e'] e rfl number?_alarmed hsaid (by omega) e' (by simp)
  rw [he'] at hnone
  cases hnone

/-- The run says of its first line that it comes to it, and that is the end of the passage. -/
theorem lastWords_of_superseded_alarmed : ∃ e e' : Saying,
    Journal.hear.logging.Logs Prod.snd ∧ Journal.hear.logging.MayFail ∧
      alarmed.audience.2 = [] ∧ Run.number? alarmed.game (.live "moveRight();") = some 2 ∧
      ((next Journal.hear.logging (.live "moveRight();")).on alarmed).2.audience.2 = [e, e'] ∧
      e.after.runId ≠ 2 ∧
      LastWords Journal.hear.logging (.live "moveRight();") 2 alarmed [] e [e'] := by
  obtain ⟨e, e', hsaid, he, -⟩ := exists_said_alarmed
  have hlost : e.after.runId ≠ 2 := by omega
  exact ⟨e, e', Listener.logs_logging _, Journal.mayFail_hear.logging, rfl, number?_alarmed, hsaid,
    hlost, lastWords_of_superseded (Listener.logs_logging _) Journal.mayFail_hear.logging rfl
      number?_alarmed (show _ = [] ++ e :: [e'] from hsaid) hlost⟩

end Play

end ScriptedMaze
