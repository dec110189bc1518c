import ScriptedMaze.Proofs.Play.Calls
import ScriptedMaze.Proofs.Play.Parts

/-!
# What a run's turn does to the game

A run has a turn whenever it is asked for a step. In the middle of it, every notice
puts the game into other hands (`Game.Disturbed`), so that the run may come back to a
game that has been stopped, or that carries another number.

What the turn relies on all the same is that the game is `Game.Claimed` for the run's
number: the game carries that number or a later one, and if it carries it, the run is in
progress or has been stopped. Other hands keep this up. So does the move itself, while
it is being made; only when the run gives the game back, or goes on, is it settled how
the move came out (`Game.Left`).

`Run.Turn` sums up what a turn can have done. Either the run is over and had nothing to
do with it, or it had the game under its number and left it in order. One turn after
another is a turn again (`Run.Turn.trans`), and after each the run fits the game
(`Run.Fits`): its number is not ahead of the game's, and if it is the game's, the run is in
progress.
-/

namespace ScriptedMaze

/-! ### Games in order -/

namespace Game

/-- **What can be told of a game at any moment**: a run owns it exactly in the phase of
a running one, and the phase of a finished one is that of a finished world. -/
structure Sound (g : Game) : Prop where
  running_iff : g.running = true ↔ g.phase = .running
  finished : g.phase = .finished → g.world.finished = true

/-- **A game in order**: while a run owns it, its world is not finished. -/
structure Settled (g : Game) : Prop extends Sound g where
  unfinished : g.running = true → g.world.finished = false

/-- **A game that is or was claimed by a run** with a given number. It carries that
number or a later one; only this run can be in progress; and if the number is still the
game's, the run is in progress or has been told to stop. -/
structure Claimed (id : Nat) (g : Game) : Prop extends Sound g where
  le : id ≤ g.runId
  owner : g.running = true → g.runId = id
  live : g.runId = id → g.running = true ∨ g.cancelled = true

variable {g g' g'' : Game} {id : Nat} {p : Phase}

theorem AtOpening.settled (h : g.AtOpening) : g.Settled where
  running_iff := by simp [h.not_running, h.phase]
  finished := by simp [h.phase]
  unfinished := by simp [h.not_running]

theorem Sound.stopped (h : g.Sound) : g.stopped.Sound := by
  unfold Game.stopped
  split
  · exact ⟨by simp, by simp⟩
  · exact ⟨h.running_iff, h.finished⟩

namespace Disturbed

theorem sound (h : Disturbed g g') (hg : g.Sound) : g'.Sound := by
  cases h with
  | kept s h =>
    subst h
    exact ⟨hg.running_iff, hg.finished⟩
  | stopped s h =>
    subst h
    exact ⟨hg.stopped.running_iff, hg.stopped.finished⟩
  | restarted _ _ opening => exact opening.settled.toSound

theorem settled (h : Disturbed g g') (hg : g.Settled) : g'.Settled where
  toSound := h.sound hg.toSound
  unfinished hrun := by
    obtain ⟨s, rfl⟩ := h.eq_of_running hrun
    exact hg.unfinished hrun

theorem claimed (h : Disturbed g g') (hg : Claimed id g) : Claimed id g' where
  toSound := h.sound hg.toSound
  le := Nat.le_trans hg.le h.runId_le
  owner hrun := by
    obtain ⟨s, rfl⟩ := h.eq_of_running hrun
    exact hg.owner hrun
  live hnumber := by
    have hsame : g.runId = id := by
      have := hg.le
      have := h.runId_le
      omega
    exact h.live (hg.live hsame) (by rw [hnumber, hsame])

end Disturbed

theorem Claimed.not_running_handedBack (h : Claimed id g) (p : Phase) :
    (g.handedBack id p).running = false := by
  unfold handedBack
  split
  · rfl
  · rename_i hne
    exact eq_false_of_ne_true fun hrun => hne (h.owner hrun)

theorem Claimed.sound_handedBack (h : Claimed id g) (hp : p ≠ .running)
    (hfin : p = .finished → g.world.finished = true) : (g.handedBack id p).Sound := by
  unfold handedBack
  split
  · exact ⟨iff_of_false Bool.false_ne_true hp, hfin⟩
  · exact h.toSound

theorem claimed_taken (g : Game) : Claimed (g.runId + 1) g.taken where
  running_iff := iff_of_true rfl rfl
  finished := nofun
  le := Nat.le_refl _
  owner _ := rfl
  live _ := Or.inl rfl

/-- A game that was disturbed goes on in order. -/
structure Onward (g g' : Game) : Prop where
  settled : g'.Settled
  number : g.runId ≤ g'.runId
  rules : g'.rules = g.rules
  running : g'.running = true → g.running = true ∧ g'.runId = g.runId
  live : g'.runId = g.runId → g.running = true ∨ g.cancelled = true →
    g'.running = true ∨ g'.cancelled = true

theorem Onward.refl (h : g.Settled) : Onward g g :=
  ⟨h, Nat.le_refl _, rfl, fun h => ⟨h, rfl⟩, fun _ h => h⟩

theorem Onward.trans (h : Onward g g') (h' : Onward g' g'') : Onward g g'' where
  settled := h'.settled
  number := Nat.le_trans h.number h'.number
  rules := h'.rules.trans h.rules
  running hrun := by
    obtain ⟨hrun', hsame'⟩ := h'.running hrun
    obtain ⟨hrun'', hsame⟩ := h.running hrun'
    exact ⟨hrun'', hsame'.trans hsame⟩
  live hnumber hlive := by
    have hle := h.number
    have hle' := h'.number
    exact h'.live (by omega) (h.live (by omega) hlive)

theorem Disturbed.onward (h : Disturbed g g') (hg : g.Settled) : Onward g g' where
  settled := h.settled hg
  number := h.runId_le
  rules := h.rules
  running hrun := by
    obtain ⟨s, rfl⟩ := h.eq_of_running hrun
    exact ⟨hrun, rfl⟩
  live hnumber hlive := h.live hlive hnumber

end Game

/-! ### Runs and the game -/

namespace Run

/-- **The run owns the number of the game.** -/
def Carries (run : Run) (id : Nat) : Prop := ∃ r, run = .suspended r ∧ r.runId = id

/-- The run has been asked for a step. -/
def Started : Run → Prop
  | suspended _ => True
  | ended => True
  | _ => False

theorem Carries.eq {run : Run} {i j : Nat} (h : run.Carries i) (h' : run.Carries j) : i = j := by
  obtain ⟨r, rfl, rfl⟩ := h
  obtain ⟨r', heq, rfl⟩ := h'
  cases heq
  rfl

theorem not_carries_ended (id : Nat) : ¬ended.Carries id := by
  rintro ⟨r, h, -⟩
  cases h

theorem carries_suspended (r : Replay) : (suspended r).Carries r.runId := ⟨r, rfl, rfl⟩

end Run

namespace Game

/-- **How a run with a given number leaves the game** at the end of its turn. -/
structure Left (id : Nat) (run : Run) (g : Game) : Prop extends g.Settled where
  started : run.Started
  le : id ≤ g.runId
  number : ∀ i, run.Carries i → i = id
  owner : g.running = true → run.Carries g.runId
  live : run.Carries g.runId → g.running = true ∨ g.cancelled = true

variable {g g' : Game} {id : Nat} {p : Phase}

theorem Left.ended (h : g.Sound) (hle : id ≤ g.runId) (hrun : g.running = false) :
    Left id .ended g where
  toSound := h
  unfinished := by simp [hrun]
  started := trivial
  le := hle
  number i hi := absurd hi (Run.not_carries_ended i)
  owner := by simp [hrun]
  live hi := absurd hi (Run.not_carries_ended _)

/-- A run that is over does not mind what becomes of the game. -/
theorem Left.disturbed (h : Left id .ended g) (hd : Disturbed g g') : Left id .ended g' := by
  have hrun : g.running = false :=
    eq_false_of_ne_true fun hrun => Run.not_carries_ended _ (h.owner hrun)
  exact .ended (hd.sound h.toSound) (Nat.le_trans h.le hd.runId_le) (hd.not_running hrun)

/-- **A run gives the game back**, and then it is in other hands. -/
theorem Claimed.left_handedBack (h : Claimed id g) (hp : p ≠ .running)
    (hfin : p = .finished → g.world.finished = true) (hd : Disturbed (g.handedBack id p) g') :
    Left id .ended g' := by
  have hleft : Left id .ended (g.handedBack id p) :=
    .ended (h.sound_handedBack hp hfin) (by simpa using h.le) (h.not_running_handedBack p)
  exact hleft.disturbed hd

/-- A run whose number the game has lost is over. -/
theorem Claimed.left_of_ne (h : Claimed id g) (hne : g.runId ≠ id) : Left id .ended g :=
  .ended h.toSound h.le (eq_false_of_ne_true fun hrun => hne (h.owner hrun))

/-- **A run goes on**, if the world is not finished. -/
theorem Claimed.left_suspended (h : Claimed id g) (hfin : g.world.finished = false) (r : Replay)
    (hr : r.runId = id) : Left id (.suspended r) g where
  toSound := h.toSound
  unfinished _ := hfin
  started := trivial
  le := h.le
  number i hi := by
    rw [← hr]
    exact hi.eq (Run.carries_suspended r)
  owner hrun := by
    rw [h.owner hrun, ← hr]
    exact Run.carries_suspended r
  live hi := h.live (by rw [hi.eq (Run.carries_suspended r), hr])

end Game

/-- **What a turn of a run can have done.** -/
inductive Run.Turn (run : Run) (g : Game) (run' : Run) (g' : Game) : Prop
  /-- The run is over, and whatever has become of the game, it was not the run. -/
  | gone (ended : run' = .ended) (onward : g.Onward g')
      (released : run.Carries g.runId → g'.running = false)
  /-- The run had the game under a number: a new one, or the one it carried. -/
  | made (id : Nat) (number : g.runId < id ∨ g.runId = id ∧ run.Carries id)
      (left : Game.Left id run' g')

namespace Run

variable {run run' run'' : Run} {g g' g'' : Game} {id : Nat}

/-- **A run fits a game**: the number that it carries was given before, and if it is the
game's, the run is in progress or has been told to stop. -/
structure Fits (run : Run) (g : Game) : Prop where
  le : ∀ i, run.Carries i → i ≤ g.runId
  live : run.Carries g.runId → g.running = true ∨ g.cancelled = true

theorem not_carries_of_not_started (h : ¬run.Started) (id : Nat) : ¬run.Carries id := by
  rintro ⟨r, rfl, -⟩
  exact h trivial

/-- A run that carries no number fits every game. -/
theorem Fits.of_not_carries (h : ∀ i, ¬run.Carries i) (g : Game) : run.Fits g where
  le i hi := absurd hi (h i)
  live hi := absurd hi (h _)

theorem Fits.onward (h : run.Fits g) (hg : g.Onward g') : run.Fits g' where
  le i hi := Nat.le_trans (h.le i hi) hg.number
  live hi := by
    have hsame : g'.runId = g.runId := Nat.le_antisymm (h.le _ hi) hg.number
    rw [hsame] at hi
    exact hg.live hsame (h.live hi)

/-- **A run that carries the number of a game in order has a claim on it.** -/
theorem Fits.claimed {r : Replay} (h : (suspended r).Fits g) (hg : g.Settled)
    (hid : g.runId = r.runId) : Game.Claimed r.runId g where
  toSound := hg.toSound
  le := Nat.le_of_eq hid.symm
  owner _ := hid
  live _ := h.live (hid ▸ carries_suspended r)

theorem fits_of_left (h : Game.Left id run g) : run.Fits g where
  le i hi := by
    rw [h.number i hi]
    exact h.le
  live := h.live

namespace Turn

theorem settled (h : Turn run g run' g') : g'.Settled := by
  cases h with
  | gone _ onward _ => exact onward.settled
  | made _ _ left => exact left.toSettled

theorem number_le (h : Turn run g run' g') : g.runId ≤ g'.runId := by
  cases h with
  | gone _ onward _ => exact onward.number
  | made id number left =>
    have hle := left.le
    omega

theorem started (h : Turn run g run' g') : run'.Started := by
  cases h with
  | gone ended _ _ =>
    subst ended
    trivial
  | made _ _ left => exact left.started

theorem fits (h : Turn run g run' g') : run'.Fits g' := by
  cases h with
  | gone ended _ _ =>
    subst ended
    exact .of_not_carries not_carries_ended g'
  | made _ _ left => exact fits_of_left left

/-- What has become of the game before the turn is no matter. -/
theorem after (h : Turn run g' run' g'') (hfit : run.Fits g) (hg : g.Onward g') :
    Turn run g run' g'' := by
  have hle := hg.number
  cases h with
  | gone ended onward released =>
    refine .gone ended (hg.trans onward) fun hi => eq_false_of_ne_true fun hrun => ?_
    -- a run that owns the game in the end owned it before, and under the same number
    obtain ⟨hrun', -⟩ := onward.running hrun
    rw [← (hg.running hrun').2] at hi
    cases hrun.symm.trans (released hi)
  | made id number left =>
    refine .made id ?_ left
    rcases number with hlt | ⟨hid, hi⟩
    · exact .inl (Nat.lt_of_le_of_lt hle hlt)
    · have hle' := hfit.le id hi
      exact .inr ⟨by omega, hi⟩

/-- **One turn after the other.** -/
theorem trans (h : Turn run g run' g') (h' : Turn run' g' run'' g'') : Turn run g run'' g'' := by
  cases h with
  | gone ended onward released =>
    subst ended
    cases h' with
    | gone ended' onward' _ =>
      refine .gone ended' (onward.trans onward') fun hi => eq_false_of_ne_true fun hrun => ?_
      cases (onward'.running hrun).1.symm.trans (released hi)
    | made id number left =>
      have hle := onward.number
      rcases number with hlt | ⟨-, hi⟩
      · exact .made id (.inl (Nat.lt_of_le_of_lt hle hlt)) left
      · exact absurd hi (not_carries_ended id)
  | made id number left =>
    have hle := left.le
    cases h' with
    | gone ended' onward' released' =>
      subst ended'
      refine .made id number (.ended onward'.settled.toSound (Nat.le_trans hle onward'.number)
        (eq_false_of_ne_true fun hrun => ?_))
      have hi := left.owner (onward'.running hrun).1
      cases hrun.symm.trans (released' hi)
    | made id' number' left' =>
      rcases number' with hlt | ⟨-, hi⟩
      · exact .made id' (.inl (by omega)) left'
      · rw [left.number id' hi] at left'
        exact .made id number left'

end Turn

end Run

/-! ### First and last turns -/

namespace Play

variable {σ : Type} {tell : Listener σ} {t : Table σ}

/-- What is told when a run has taken the game, before its first line or move is come to. -/
def opening (tell : Listener σ) : Run → Play σ Unit
  | .batch moves => do
    precheck tell moves
    report tell "Executing robot commands..." .info
    tell (.debug ("Executing " ++ toString moves.length ++ " moves"))
  | .live _ => report tell "Live mode: executing lines..." .info
  | _ => return

/-- The first step of a run under the number that it was given. -/
def onset (tell : Listener σ) (id : Nat) : Run → Play σ (Option Report × Run)
  | .batch moves => resume tell { mode := .batch, runId := id, moves }
  | .live source =>
    let lines := numberedLines source
    nextLine tell { mode := .live, runId := id, lines } lines
  | run => return (none, run)

/-- **A run takes the game, and all but what is told of that is under its care.** -/
theorem on_next_of_idle {run : Run} (hrun : ¬run.Started) (h : t.game.running = false)
    (hfin : t.game.world.finished = false) :
    (next tell run).on t =
      (opening tell run >>= fun _ => guarded (t.game.runId + 1)
        (onset tell (t.game.runId + 1) run)).on { t with game := t.game.taken } := by
  cases run with
  | batch moves =>
    unfold next opening
    rw [on_bind, on_begin h hfin]
    simp only [bind_assoc]
    rfl
  | live source =>
    unfold next
    rw [on_bind, on_begin h hfin]
    rfl
  | suspended r => exact absurd trivial hrun
  | ended => exact absurd trivial hrun

/-- **A run that has been begun and does not carry the number of the game is over.** -/
theorem on_next_of_lost {run : Run} (hrun : run.Started) (hlost : ¬run.Carries t.game.runId) :
    (next tell run).on t = (.ok (none, .ended), t) := by
  cases run with
  | batch moves => exact hrun.elim
  | live source => exact hrun.elim
  | suspended r =>
    exact on_guarded_of_ok (on_resume_of_ne fun hid => hlost (hid ▸ Run.carries_suspended r))
  | ended => rfl

/-- Nor is anything left of it to give up. -/
theorem on_close_of_lost {run : Run} (hlost : ¬run.Carries t.game.runId) :
    (close run : Play σ Unit).on t = (.ok (), t) := by
  cases run with
  | batch moves => rfl
  | live source => rfl
  | suspended r =>
    have hsame : t.game.released r.runId = t.game := by
      refine if_neg ?_
      rintro ⟨hid, -⟩
      exact hlost (hid ▸ Run.carries_suspended r)
    exact (on_release r.runId t).trans (by rw [hsame])
  | ended => rfl

end Play

end ScriptedMaze
