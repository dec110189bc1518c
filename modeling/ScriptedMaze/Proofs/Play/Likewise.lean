import ScriptedMaze.Proofs.Play.Steps

/-!
# Games that are alike

Nothing that is done to a game looks at its status, and of its number nothing is asked but
whether it is the one that a run carries. So two games that differ in their statuses, and in
their numbers by as much as the numbers of their runs do, are played alike, whatever is done
to them; and if those who listen to the one are told something, so are those who listen to
the other.

A `Likeness` says in what two tables may differ. A play is done **likewise** at the second of
them (`Play.Likewise`) if it gives the same there, and if both tables stay alike. Each play
that is asked for is so done likewise, as long as the listener keeps tables alike when it is
told something (`Likeness.Heeded`); and it is the step of a run that carries all the others
(`Play.Likewise.next`).

The case in which nothing but the number differs is that of plays that are done under other
numbers (`Play.Renumbers`), and of listeners that do not see the number (`Listener.Blind`).
-/

namespace ScriptedMaze

/-! ### Other numbers -/

/-- The game under a number that is greater by `k`. -/
def Game.renumbered (k : Nat) (g : Game) : Game := { g with runId := k + g.runId }

/-- The table with its game under another number. -/
def Table.renumbered {σ : Type} (k : Nat) (t : Table σ) : Table σ :=
  { t with game := t.game.renumbered k }

/-- What is left of a run under another number. -/
def Replay.renumbered (k : Nat) (r : Replay) : Replay := { r with runId := k + r.runId }

/-- The run under another number, if it has been begun. -/
def Run.renumbered (k : Nat) : Run → Run
  | suspended r => suspended (r.renumbered k)
  | run => run

/-- The run under another number, with the same waits. -/
def PacedRun.renumbered (k : Nat) (p : PacedRun) : PacedRun := { p with run := p.run.renumbered k }

/-- A renumbered run has as many moves left. -/
@[simp] theorem Run.movesLeft_renumbered (limits : Script.Limits) (k : Nat) (run : Run) :
    (run.renumbered k).movesLeft limits = run.movesLeft limits := by
  cases run <;> rfl

/-! ### Tables that are alike -/

/-- **In what two tables may differ**: the number of the second game is greater by as much, and
the statuses and the audiences are related. What is told to both players is no difference. -/
structure Likeness (σ : Type) where
  shift : Nat
  status : Status → Status → Prop
  audience : σ → σ → Prop
  status_refl : ∀ st, status st st

/-- The game under another number, and with another status. -/
def Game.likened (k : Nat) (st : Status) (g : Game) : Game :=
  { g.renumbered k with status := st }

/-- **Two tables are alike.** -/
inductive Likeness.Alike {σ : Type} (L : Likeness σ) : Table σ → Table σ → Prop
  | intro {g : Game} {st : Status} {a a' : σ} (hstatus : L.status g.status st)
      (haudience : L.audience a a') : L.Alike ⟨g, a⟩ ⟨g.likened L.shift st, a'⟩

namespace Game

variable {k id : Nat} {st : Status} {p : Phase}

theorem likened_handedBack (g : Game) :
    (g.likened k st).handedBack (k + id) p = (g.handedBack id p).likened k st := by
  by_cases hid : g.runId = id
  · rw [handedBack_of_eq hid, handedBack_of_eq (congrArg (k + ·) hid)]
    rfl
  · rw [handedBack_of_ne hid, handedBack_of_ne fun heq => hid (Nat.add_left_cancel heq)]

theorem likened_released (g : Game) :
    (g.likened k st).released (k + id) = (g.released id).likened k st := by
  rw [released_eq, released_eq, apply_ite (likened k st), likened_handedBack]
  rfl

theorem likened_stopped (g : Game) :
    (g.likened k st).stopped = g.stopped.likened k st := by
  unfold stopped
  rw [apply_ite (likened k st)]
  rfl

end Game

namespace Play

variable {σ α β : Type} {L : Likeness σ}

/-! ### Plays that are done likewise -/

/-- **A play is done likewise at tables that are alike**: what it gives there is the same but
for the numbers in it, which `f` changes, and the tables stay alike. -/
def Likewise (L : Likeness σ) (f : α → α) (act act' : Play σ α) : Prop :=
  ∀ t t', L.Alike t t' →
    (act'.on t').1 = (act.on t).1.map f ∧ L.Alike (act.on t).2 (act'.on t').2

namespace Likewise

variable {f : α → α} {h : β → β} {act act' : Play σ α} {t t' u : Table σ}

theorem pure (a : α) : Likewise L f (Pure.pure a : Play σ α) (Pure.pure (f a)) :=
  fun _ _ ht => ⟨rfl, ht⟩

theorem throw (fault : GameFault) : Likewise L f (throw fault : Play σ α) (throw fault) :=
  fun _ _ ht => ⟨rfl, ht⟩

theorem of_ok (hact : Likewise L f act act') (ht : L.Alike t t') {a : α}
    (hon : act.on t = (.ok a, u)) : ∃ u', act'.on t' = (.ok (f a), u') ∧ L.Alike u u' := by
  obtain ⟨hresult, hafter⟩ := hact t t' ht
  rw [hon] at hresult hafter
  exact ⟨_, Prod.ext hresult rfl, hafter⟩

theorem of_error (hact : Likewise L f act act') (ht : L.Alike t t') {fault : GameFault}
    (hon : act.on t = (.error fault, u)) :
    ∃ u', act'.on t' = (.error fault, u') ∧ L.Alike u u' := by
  obtain ⟨hresult, hafter⟩ := hact t t' ht
  rw [hon] at hresult hafter
  exact ⟨_, Prod.ext hresult rfl, hafter⟩

theorem bind {next next' : α → Play σ β} (hact : Likewise L f act act')
    (hnext : ∀ a, Likewise L h (next a) (next' (f a))) :
    Likewise L h (act >>= next) (act' >>= next') := by
  intro t t' ht
  rw [on_bind, on_bind]
  rcases hon : act.on t with ⟨fault | a, u⟩
  · obtain ⟨u', hon', hafter⟩ := hact.of_error ht hon
    rw [hon']
    exact ⟨rfl, hafter⟩
  · obtain ⟨u', hon', hafter⟩ := hact.of_ok ht hon
    rw [hon']
    exact hnext a u u' hafter

theorem game {next next' : Game → Play σ β}
    (hnext : ∀ g st, Likewise L h (next g) (next' (g.likened L.shift st))) :
    Likewise L h (Play.game >>= next) (Play.game >>= next') := by
  rintro _ _ ⟨hstatus, haudience⟩
  exact hnext _ _ _ _ (.intro hstatus haudience)

theorem modifyGame {f f' : Game → Game}
    (hf : ∀ g st, f' (g.likened L.shift st) = (f g).likened L.shift st)
    (hsame : ∀ g, (f g).status = g.status) :
    Likewise L id (Play.modifyGame f : Play σ Unit) (Play.modifyGame f') := by
  rintro _ _ ⟨hstatus, haudience⟩
  rw [on_modifyGame, on_modifyGame]
  refine ⟨rfl, ?_⟩
  dsimp only
  rw [hf]
  exact .intro ((hsame _).symm ▸ hstatus) haudience

theorem ite {c c' : Prop} [Decidable c] [Decidable c'] {other other' : Play σ α} (hc : c' ↔ c)
    (hact : Likewise L f act act') (hother : Likewise L f other other') :
    Likewise L f (if c then act else other) (if c' then act' else other') := by
  by_cases h : c
  · rwa [if_pos h, if_pos (hc.mpr h)]
  · rwa [if_neg h, if_neg (mt hc.mp h)]

theorem tryCatch {mend mend' : GameFault → Play σ α} (hact : Likewise L f act act')
    (hmend : ∀ fault, Likewise L f (mend fault) (mend' fault)) :
    Likewise L f (tryCatch act mend) (tryCatch act' mend') := by
  intro t t' ht
  rw [on_tryCatch, on_tryCatch]
  rcases hon : act.on t with ⟨fault | a, u⟩
  · obtain ⟨u', hon', hafter⟩ := hact.of_error ht hon
    rw [hon']
    exact hmend fault u u' hafter
  · obtain ⟨u', hon', hafter⟩ := hact.of_ok ht hon
    rw [hon']
    exact ⟨rfl, hafter⟩

theorem forM {act : α → Play σ Unit} (hact : ∀ a, Likewise L id (act a) (act a))
    (as : List α) : Likewise L id (as.forM act) (as.forM act) := by
  induction as with
  | nil => exact pure ()
  | cons a as ih => exact (hact a).bind fun _ => ih

end Likewise

end Play

/-- **A listener keeps tables alike** when it is told something. -/
def Likeness.Heeded {σ : Type} (L : Likeness σ) (tell : Listener σ) : Prop :=
  ∀ n, Play.Likewise L id (tell n) (tell n)

namespace Play

variable {σ : Type} {L : Likeness σ} {tell : Listener σ} {r : Replay}

namespace Likewise

/-! ### Plays that concern no run -/

section Heeded

variable (htell : L.Heeded tell)

include htell

theorem notice (n : Notice) : Likewise L id (tell n) (tell n) :=
  htell n

theorem report (text : String) (severity : Severity) :
    Likewise L id (report tell text severity) (report tell text severity) := by
  refine bind (f := id) ?_ fun _ => notice htell _
  rintro _ _ ⟨-, haudience⟩
  exact ⟨rfl, .intro (L.status_refl _) haudience⟩

theorem drawAll : Likewise L id (drawAll tell) (drawAll tell) := by
  refine game fun g _ => (forM (fun y => ?_) _).bind fun _ => game fun _ _ => notice htell _
  exact game fun g' _ => forM (fun x => notice htell _) _

theorem reset : Likewise L id (reset tell) (reset tell) := by
  refine bind (notice htell _) fun _ => bind (modifyGame (fun _ _ => rfl) fun _ => rfl) fun _ => ?_
  exact bind (drawAll htell) fun _ => game fun g _ => report htell _ _

theorem setDifficulty (name : String) :
    Likewise L id (setDifficulty tell name) (setDifficulty tell name) := by
  unfold Play.setDifficulty
  split
  · exact throw _
  · refine bind (modifyGame (fun _ _ => rfl) fun _ => rfl) fun _ => ?_
    exact bind (reset htell) fun _ => notice htell _

omit htell in
theorem cancel : Likewise L id (cancel : Play σ Unit) cancel := by
  refine modifyGame (fun g _ => g.likened_stopped) fun g => ?_
  split <;> rfl

theorem solution : Likewise L id (solution tell) (solution tell) := by
  refine game fun g st => ?_
  rw [show (g.likened L.shift st).world = g.world from rfl]
  cases g.world.route? with
  | none => exact pure none
  | some steps => exact bind (notice htell _) fun _ => pure _

omit htell in
theorem conclude (action : String) (verdict : Verdict) (events : List Event) :
    Likewise L id (conclude action verdict events : Play σ Report)
      (conclude action verdict events) :=
  game fun _ _ => pure _

theorem announce (p : Point) (e : Effect) :
    Likewise L id (announce tell p e) (announce tell p e) := by
  cases e with
  | none => exact pure []
  | keyCollected =>
    exact (notice htell _).bind fun _ => (report htell _ _).bind fun _ =>
      (notice htell _).bind fun _ => pure _
  | doorOpened =>
    exact (notice htell _).bind fun _ => (report htell _ _).bind fun _ =>
      (notice htell _).bind fun _ => pure _
  | flagReached =>
    exact game fun g _ => (report htell _ _).bind fun _ => (notice htell _).bind fun _ => pure _

theorem tellMove (d : Direction) (before after : World) (outcome : Outcome) :
    Likewise L id (tellMove tell d before after outcome)
      (tellMove tell d before after outcome) := by
  cases outcome with
  | blocked => exact (notice htell _).bind fun _ => conclude _ _ _
  | moved effect =>
    exact (notice htell _).bind fun _ => (announce htell _ effect).bind fun _ =>
      (notice htell _).bind fun _ => conclude _ _ _

theorem perform (a : Action) : Likewise L id (perform tell a) (perform tell a) := by
  unfold Play.perform
  split
  · exact conclude _ _ _
  · rename_i d _
    refine game fun g _ => ite Iff.rfl (conclude _ _ _) ?_
    rintro _ _ ⟨hstatus, haudience⟩
    rw [on_makeMove, on_makeMove]
    exact tellMove htell d _ _ _ _ _ (.intro (g := Game.moved d _) hstatus haudience)

theorem step (a : Action) : Likewise L id (step tell a) (step tell a) :=
  game fun _ _ => ite Iff.rfl (throw _) (perform htell a)

end Heeded

/-! ### Steps of a run -/

/-- What a step of a run gives, under another number. -/
abbrev answer (k : Nat) : Option Report × Run → Option Report × Run :=
  Prod.map id (Run.renumbered k)

/-- A run that has ended has no number. -/
theorem ended (res? : Option Report) :
    Likewise L (answer L.shift) (Pure.pure (res?, Run.ended) : Play σ (Option Report × Run))
      (Pure.pure (res?, Run.ended)) :=
  pure (res?, Run.ended)

theorem stale (i : Nat) : Likewise L id (stale i : Play σ Bool) (stale (L.shift + i)) := by
  rintro _ _ (@⟨g, _, _, _, hstatus, haudience⟩)
  rw [on_stale, on_stale]
  have hid : (L.shift + g.runId ≠ L.shift + i) ↔ g.runId ≠ i := by omega
  exact ⟨congrArg Except.ok (decide_eq_decide.mpr hid), .intro hstatus haudience⟩

theorem finish (i : Nat) (p : Phase) :
    Likewise L id (finish i p : Play σ Unit) (finish (L.shift + i) p) := by
  refine modifyGame (fun g _ => g.likened_handedBack) fun g => ?_
  split <;> rfl

theorem release (i : Nat) : Likewise L id (release i : Play σ Unit) (release (L.shift + i)) := by
  refine modifyGame (fun g _ => g.likened_released) fun g => ?_
  split <;> rfl

theorem guarded {α : Type} {f : α → α} {act act' : Play σ α} (i : Nat)
    (hact : Likewise L f act act') :
    Likewise L f (guarded i act) (guarded (L.shift + i) act') :=
  tryCatch hact fun fault => bind (release i) fun _ => throw fault

theorem close (run : Run) :
    Likewise L id (close run : Play σ Unit) (close (run.renumbered L.shift)) := by
  cases run with
  | suspended r => exact release r.runId
  | batch ds => exact pure ()
  | live source => exact pure ()
  | ended => exact pure ()

section Heeded

variable (htell : L.Heeded tell)

include htell

theorem begin : Likewise L (Option.map (L.shift + ·)) (begin tell) (begin tell) := by
  refine game fun g _ => ite Iff.rfl (throw _) (ite Iff.rfl ?_ ?_)
  · exact bind (report htell _ _) fun _ => pure none
  · exact bind (modifyGame (fun _ _ => rfl) fun _ => rfl) fun _ => pure _

theorem stop (r : Replay) : Likewise L id (stop tell r) (stop tell (r.renumbered L.shift)) :=
  bind (finish _ _) fun _ => report htell _ _

theorem complete (r : Replay) :
    Likewise L id (complete tell r) (complete tell (r.renumbered L.shift)) := by
  refine bind (stale _) fun lost => ite Iff.rfl (pure ()) (game fun g _ => ite Iff.rfl ?_ ?_)
  · exact stop htell r
  · refine bind (finish _ _) fun _ => ?_
    rw [show (r.renumbered L.shift).mode = r.mode from rfl]
    cases r.mode with
    | live => exact report htell _ _
    | batch => exact report htell _ _

theorem tellBlocked (r : Replay) (d : Direction) :
    Likewise L id (tellBlocked tell r d) (tellBlocked tell (r.renumbered L.shift) d) := by
  obtain ⟨mode, i, index, line, moves, lines⟩ := r
  cases mode with
  | batch => exact report htell _ _
  | live =>
    cases line with
    | none => exact report htell _ _
    | some n => exact report htell _ _

theorem afterMove (r : Replay) (d : Direction) (rest : List Direction) (res : Report) :
    Likewise L (answer L.shift) (afterMove tell r d rest res)
      (afterMove tell (r.renumbered L.shift) d rest res) := by
  refine ite Iff.rfl ?_ (ite Iff.rfl ?_ ?_)
  · exact bind (finish _ _) fun _ => bind (tellBlocked htell r d) fun _ => ended _
  · exact bind (finish _ _) fun _ => ended _
  · exact pure (some _, Run.suspended _)

theorem advance (r : Replay) (d : Direction) (rest : List Direction) :
    Likewise L (answer L.shift) (advance tell r d rest)
      (advance tell (r.renumbered L.shift) d rest) := by
  intro t t' ht
  have hnumber : t'.game.runId = (r.renumbered L.shift).runId ↔ t.game.runId = r.runId := by
    cases ht
    exact Nat.add_left_cancel_iff
  have hcancelled : t'.game.cancelled = t.game.cancelled := by
    cases ht
    rfl
  by_cases hid : t.game.runId = r.runId
  · cases hc : t.game.cancelled with
    | true =>
      rw [on_advance_of_cancelled hid hc,
        on_advance_of_cancelled (hnumber.mpr hid) (hcancelled.trans hc)]
      exact bind (stop htell r) (fun _ => ended none) t t' ht
    | false =>
      rw [on_advance hid hc, on_advance (hnumber.mpr hid) (hcancelled.trans hc)]
      exact bind (perform htell _) (fun res => afterMove htell r d rest res) t t' ht
  · rw [on_advance_of_ne hid, on_advance_of_ne (mt hnumber.mp hid)]
    exact ⟨rfl, ht⟩

theorem readLine (n : Nat) (line : String) :
    Likewise L id (readLine tell n line) (readLine tell n line) := by
  refine game fun g st => ?_
  rw [show (g.likened L.shift st).rules = g.rules from rfl]
  cases Script.lineCommands g.rules.limits line with
  | error f =>
    exact bind (report htell _ _) fun _ => bind (notice htell _) fun _ => pure none
  | ok ds =>
    refine ite Iff.rfl (bind (report htell _ _) fun _ => pure _) ?_
    exact ite Iff.rfl (bind (notice htell _) fun _ => pure _) (pure _)

theorem nextLine (r : Replay) (lines : List (Nat × String)) :
    Likewise L (answer L.shift) (nextLine tell r lines)
      (nextLine tell (r.renumbered L.shift) lines) := by
  induction lines with
  | nil => exact bind (complete htell r) fun _ => ended none
  | cons numbered lines ih =>
    obtain ⟨n, line⟩ := numbered
    refine game fun g _ => ite Iff.rfl (bind (complete htell r) fun _ => ended none) ?_
    refine bind (readLine htell n line) fun ds? => ?_
    match ds? with
    | none => exact ih
    | some [] => exact bind (stale _) fun lost => ite Iff.rfl (ended none) ih
    | some (d :: rest) => exact advance htell { r with line := some n, lines } d rest

theorem resume (r : Replay) :
    Likewise L (answer L.shift) (resume tell r) (resume tell (r.renumbered L.shift)) := by
  unfold Play.resume
  rw [show (r.renumbered L.shift).moves = r.moves from rfl]
  cases r.moves with
  | nil => exact bind (stale _) fun lost => ite Iff.rfl (ended none) (nextLine htell r _)
  | cons d rest => exact advance htell r d rest

theorem precheck (ds : List Direction) : Likewise L id (precheck tell ds) (precheck tell ds) := by
  cases ds with
  | nil => exact pure ()
  | cons d ds =>
    refine game fun g _ => ite Iff.rfl ?_ (pure ())
    exact bind (notice htell _) fun _ => notice htell _

/-- **The next step of a run is made likewise** where the run carries another number. -/
theorem next (run : Run) :
    Likewise L (answer L.shift) (next tell run) (next tell (run.renumbered L.shift)) := by
  cases run with
  | ended => exact ended none
  | suspended r => exact guarded r.runId (resume htell r)
  | batch ds =>
    refine bind (begin htell) fun id? => ?_
    cases id? with
    | none => exact ended none
    | some i =>
      refine bind (precheck htell ds) fun _ => bind (report htell _ _) fun _ => ?_
      refine bind (notice htell _) fun _ => guarded i ?_
      exact resume htell { mode := .batch, runId := i, moves := ds }
  | live source =>
    refine bind (begin htell) fun id? => ?_
    cases id? with
    | none => exact ended none
    | some i =>
      refine bind (report htell _ _) fun _ => guarded i ?_
      exact nextLine htell { mode := .live, runId := i, lines := numberedLines source } _

/-! ### Opening a run, and runs at a pace -/

theorem openBatch (source : String) :
    Likewise L (Run.renumbered L.shift) (openBatch tell source) (openBatch tell source) := by
  have hread : Likewise L id (announceReading tell) (announceReading tell) :=
    game fun g _ => ite Iff.rfl (throw _) (report htell _ _)
  refine bind hread fun _ => game fun g st => ?_
  rw [show (g.likened L.shift st).rules = g.rules from rfl]
  cases Script.commands g.rules.limits source with
  | error f => exact bind (report htell _ _) fun _ => throw _
  | ok ds => exact bind (notice htell _) fun _ => pure (Run.batch ds)

theorem openLive (source : String) :
    Likewise L (Run.renumbered L.shift) (openLive tell source) (openLive tell source) := by
  refine game fun g _ => ite Iff.rfl (throw _) (ite Iff.rfl ?_ (pure (Run.live source)))
  exact bind (report htell _ _) fun _ => throw _

theorem await (p : Pace) : Likewise L id (await tell p) (await tell p) :=
  ite Iff.rfl (notice htell _) (pure ())

theorem nextPaced (p : PacedRun) :
    Likewise L (Prod.map id (PacedRun.renumbered L.shift)) (nextPaced tell p)
      (nextPaced tell (p.renumbered L.shift)) := by
  refine bind (forM (fun q => await htell q) p.paces) fun _ => bind (next htell p.run) ?_
  rintro ⟨res?, run⟩
  cases res? with
  | none => exact pure (none, PacedRun.ended)
  | some res => exact pure (some res, _)

theorem take (n : Nat) (p : PacedRun) :
    Likewise L id (take tell (fun _ => Pure.pure ()) n p)
      (take tell (fun _ => Pure.pure ()) n (p.renumbered L.shift)) := by
  induction n generalizing p with
  | zero => exact pure []
  | succ n ih =>
    refine bind (nextPaced htell p) ?_
    rintro ⟨res?, p'⟩
    cases res? with
    | none => exact pure []
    | some res => exact bind (pure (f := id) ()) fun _ => bind (ih p') fun _ => pure _

theorem drain (p : PacedRun) :
    Likewise L id (drain tell p) (drain tell (p.renumbered L.shift)) := by
  refine game fun g st => ?_
  rw [show (p.renumbered L.shift).movesLeft (g.likened L.shift st).rules.limits =
    p.movesLeft g.rules.limits from Run.movesLeft_renumbered _ _ _]
  exact take htell _ p

end Heeded

end Likewise

/-! ### Nothing but the number -/

/-- **One play does at a renumbered table what another does** at the table as it was, and what
it gives is changed by `f`. -/
def Renumbers {α : Type} (k : Nat) (f : α → α) (act act' : Play σ α) : Prop :=
  ∀ t : Table σ, act'.on (t.renumbered k) = ((act.on t).1.map f, (act.on t).2.renumbered k)

end Play

/-- **A listener that does not see the number of the game.** -/
def Listener.Blind {σ : Type} (tell : Listener σ) : Prop :=
  ∀ k n, Play.Renumbers k id (tell n) (tell n)

namespace Likeness

variable {σ : Type} {k : Nat} {t t' : Table σ}

/-- Tables that differ in nothing but the number of the game. -/
def renumbering (σ : Type) (k : Nat) : Likeness σ where
  shift := k
  status := Eq
  audience := Eq
  status_refl := Eq.refl

theorem alike_renumbering_iff : (renumbering σ k).Alike t t' ↔ t' = t.renumbered k := by
  constructor
  · rintro ⟨rfl, rfl⟩
    rfl
  · rintro rfl
    exact .intro (L := renumbering σ k) rfl rfl

/-- **A listener that does not see the number** keeps tables alike but for it. -/
theorem heeded_renumbering {tell : Listener σ} (h : tell.Blind) (k : Nat) :
    (renumbering σ k).Heeded tell := by
  intro n t t' ht
  rw [alike_renumbering_iff] at ht ⊢
  rw [ht, h k n t]
  exact ⟨rfl, rfl⟩

end Likeness

end ScriptedMaze
