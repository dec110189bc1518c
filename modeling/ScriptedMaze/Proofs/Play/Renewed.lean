import ScriptedMaze.Proofs.Play.Dismissed
import ScriptedMaze.Proofs.Play.Likened

/-!
# Mazes that are started over

When the maze is started over, the game is as good as new. It differs from a new game with
the same maze only by its number, and the sitting, by the runs that were opened before. The
number does not matter (`Likeness.renumbering`), and the runs that were begun before are
dismissed, so that they may even be asked for steps in between (`Sitting.Dismissed`).

So whatever is done with runs that are opened after the maze was started over comes to the
same as in a sitting at a new game: the same replies, the same notices for those who listen,
and in the end the same game up to its number (`Sitting.sameFrom_reset`). Those who listen
must keep quiet and must not see the number of the game, which is not shown to anybody.
-/

namespace ScriptedMaze

namespace Sitting

variable {σ : Type} {tell : Listener σ} {s₀ s s' : Sitting σ} {k : Nat} {name : String}
  {p : PacedRun} {new : String → Prop} {dead : Nat → Prop} {o : Operation}

/-! ### Sittings that are alike but for numbers -/

/-- **A sitting is like another under greater numbers**, as far as its game and the runs of
certain names are concerned. -/
structure Renewed (k : Nat) (new : String → Prop) (s s' : Sitting σ) : Prop where
  table : s.table = s'.table.renumbered k
  runs : ∀ name, new name → s.run? name = (s'.run? name).map (PacedRun.renumbered k)

/-- It is alike but for the number. -/
theorem renewed_iff_likened :
    Renewed k new s s' ↔ Likened (Likeness.renumbering σ k) new s' s :=
  ⟨fun h => ⟨Likeness.alike_renumbering_iff.mpr h.table, h.runs⟩,
    fun h => ⟨Likeness.alike_renumbering_iff.mp h.table, h.runs⟩⟩

/-- **An operation that is about no other run comes to the same.** -/
theorem Renewed.perform (h : Renewed k new s s') (hblind : tell.Blind)
    (ho : ∀ name, o.run? = some name → new name) :
    (s.perform tell o).1 = (s'.perform tell o).1 ∧
      Renewed k new (s.perform tell o).2 (s'.perform tell o).2 := by
  rw [renewed_iff_likened] at h ⊢
  exact h.perform (Likeness.heeded_renumbering hblind k) ho

/-! ### Runs that were begun before -/

/-- **The run of a given name is over**: it was begun and is dismissed, and it waits for
nothing. -/
structure Over (s : Sitting σ) (name : String) : Prop where
  dismissed : s.Dismissed name
  unowed : ∀ p, s.run? name = some p → ∀ q ∈ p.paces, q.owed = false

namespace Over

/-- **A run that is over does nothing at all** when it is asked for a step or given up. -/
theorem exists_perform (h : s.Over name) (ho : o = .next name ∨ o = .close name)
    (tell : Listener σ) : ∃ reply, s.perform tell o = (reply, s.put name .ended) := by
  obtain ⟨⟨p, hp, hrun, hold⟩, hwait⟩ := h
  rcases ho with rfl | rfl
  · have hnext : (Play.next tell p.run).on s.table = (.ok (none, .ended), s.table) :=
      Play.on_next_of_lost hrun fun hi => Nat.lt_irrefl _ (hold _ hi)
    exact ⟨_, withRun_of_ok hp (Play.on_nextPaced_of_none (hwait p hp) hnext)⟩
  · exact ⟨_, Dismissed.close ⟨p, hp, hrun, hold⟩ tell⟩

theorem put_ended (h : s.Over name) (other : String) : (s.put other .ended).Over name := by
  by_cases hname : name = other
  · subst hname
    refine ⟨.of_ended s name, fun p hp => ?_⟩
    rw [run?_put, if_pos rfl] at hp
    cases hp
    exact fun q hq => absurd hq (List.not_mem_nil)
  · have hrun : (s.put other .ended).run? name = s.run? name :=
      (run?_put _ _ _ _).trans (if_neg hname)
    obtain ⟨⟨p, hp, hrest⟩, hwait⟩ := h
    exact ⟨⟨p, hrun.trans hp, hrest⟩, fun q hq => hwait q (hrun.symm.trans hq)⟩

/-- It stays so under every operation that is about another run or none. -/
theorem perform (h : s.Over name) (hs : s.Accounted dead) (htell : tell.MayFail)
    (ho : o.run? ≠ some name) : (s.perform tell o).2.Over name where
  dismissed := by
    refine h.dismissed.perform hs htell fun hopens => ho ?_
    cases o with
    | openBatch other source => exact hopens
    | openLive other source => exact hopens
    | _ => cases hopens
  unowed q hq := h.unowed q ((run?_perform_of_ne tell s ho).symm.trans hq)

end Over

/-! ### The same from then on -/

/-- **An operation spares the runs of a sitting** if it is about none of them. -/
def spares (s₀ : Sitting σ) (o : Operation) : Bool :=
  o.run?.all fun name => (s₀.run? name).isNone

/-- The run of a given name has been begun, and it waits for nothing. -/
def Begun (s₀ : Sitting σ) (name : String) : Prop :=
  ∃ p, s₀.run? name = some p ∧ p.run.Started ∧ ∀ q ∈ p.paces, q.owed = false

/-- The operation spares all runs of a sitting, or it asks one that has been begun for a step
or gives it up. -/
def MayFollow (s₀ : Sitting σ) (o : Operation) : Prop :=
  s₀.spares o = true ∨ ∃ name, s₀.Begun name ∧ (o = .next name ∨ o = .close name)

/-- The replies to those of the operations that spare the runs of a sitting. -/
def repliesSparing (tell : Listener σ) (s₀ s : Sitting σ) (os : List Operation) :
    List (Except SittingFault Reply) :=
  ((os.zip (s.performAll tell os).1).filter fun q => s₀.spares q.1).map (·.2)

theorem repliesSparing_cons (tell : Listener σ) (s₀ s : Sitting σ) (o : Operation)
    (os : List Operation) :
    repliesSparing tell s₀ s (o :: os) =
      if s₀.spares o then
        (s.perform tell o).1 :: repliesSparing tell s₀ (s.perform tell o).2 os
      else repliesSparing tell s₀ (s.perform tell o).2 os := by
  change (((o, (s.perform tell o).1) ::
    os.zip ((s.perform tell o).2.performAll tell os).1).filter fun q => s₀.spares q.1).map _ = _
  rw [List.filter_cons]
  split <;> rfl

theorem run?_eq_none_of_spares (h : s₀.spares o = true) (ho : o.run? = some name) :
    s₀.run? name = none := by
  unfold spares at h
  rw [ho] at h
  exact Option.isNone_iff_eq_none.mp h

theorem not_spares (h : s₀.Begun name) (ho : o = .next name ∨ o = .close name) :
    s₀.spares o = false := by
  obtain ⟨p, hp, -⟩ := h
  refine eq_false_of_ne_true fun hspares => ?_
  have hnone : s₀.run? name = none := by
    rcases ho with rfl | rfl <;> exact run?_eq_none_of_spares hspares rfl
  cases hp.symm.trans hnone

/-- **Operations that may follow come to the same**, if the runs that were begun before are
over; and if they are asked for steps in between, it makes no difference. -/
theorem Renewed.performAll (h : Renewed k (fun name => s₀.run? name = none) s s')
    (hs : s.Accounted dead) (hover : ∀ name, s₀.Begun name → s.Over name) (htell : tell.MayFail)
    (hblind : tell.Blind) (os : List Operation) (hos : ∀ o ∈ os, s₀.MayFollow o) :
    repliesSparing tell s₀ s os = (s'.performAll tell (os.filter s₀.spares)).1 ∧
      Renewed k (fun name => s₀.run? name = none) (s.performAll tell os).2
        (s'.performAll tell (os.filter s₀.spares)).2 := by
  induction os generalizing s s' dead with
  | nil => exact ⟨rfl, h⟩
  | cons o os ih =>
    obtain ⟨ho, hos⟩ := List.forall_mem_cons.mp hos
    have hs₁ := (hs.perform htell o).accounted
    rcases ho with hspares | ⟨name, hbegun, ho⟩
    · obtain ⟨hreply, hafter⟩ := h.perform hblind fun name => run?_eq_none_of_spares hspares
      have hover₁ (name : String) (hname : s₀.Begun name) : (s.perform tell o).2.Over name := by
        refine (hover name hname).perform hs htell fun hrun => ?_
        obtain ⟨p, hp, -⟩ := hname
        cases hp.symm.trans (run?_eq_none_of_spares hspares hrun)
      obtain ⟨hreplies, hall⟩ := ih hafter hs₁ hover₁ hos
      rw [List.filter_cons_of_pos hspares, repliesSparing_cons, if_pos hspares, hreplies, hreply]
      exact ⟨rfl, hall⟩
    · have hnot := not_spares hbegun ho
      obtain ⟨reply, hperform⟩ := (hover name hbegun).exists_perform ho tell
      have hrenewed : Renewed k (fun name => s₀.run? name = none) (s.perform tell o).2 s' := by
        rw [hperform]
        refine ⟨h.table, fun other hother => ?_⟩
        have hne : other ≠ name := by
          rintro rfl
          obtain ⟨p, hp, -⟩ := hbegun
          cases hp.symm.trans hother
        rw [run?_put, if_neg hne]
        exact h.runs other hother
      have hover₁ (other : String) (hname : s₀.Begun other) :
          (s.perform tell o).2.Over other := by
        rw [hperform]
        exact (hover other hname).put_ended name
      obtain ⟨hreplies, hall⟩ := ih hrenewed hs₁ hover₁ hos
      rw [List.filter_cons_of_neg (by simp [hnot]), repliesSparing_cons, if_neg (by simp [hnot])]
      exact ⟨hreplies, hall⟩

/-- A sitting at a new game with the same maze, and with the same audience. -/
def anew (tell : Listener σ) (s : Sitting σ) (a : σ) : Sitting σ :=
  ⟨⟨(Game.new tell s.table.game.rules s.table.game.maze a).2.game, s.table.audience⟩, []⟩

/-- **A game whose maze was started over is a new game** but for its number. -/
theorem renewed_reset (htell : tell.Passive) (s : Sitting σ) (a : σ) :
    (s.perform tell .reset).1 = .ok .done ∧
      Renewed s.table.game.runId (fun name => s.run? name = none) (s.perform tell .reset).2
        ((s.perform tell .reset).2.anew tell a) := by
  obtain ⟨_, t, hon, ht⟩ := Play.succeeds_reset_told htell s.table
  have hreset : s.perform tell .reset = (.ok .done, { s with table := t }) := by
    unfold perform only play
    rw [hon]
  obtain ⟨_, t', hon', ht'⟩ :=
    Play.succeeds_reset_told htell ⟨Game.unopened t.game.rules t.game.maze, a⟩
  rw [hreset]
  refine ⟨rfl, ?_, fun name hname => hname⟩
  have hnew : (Game.new tell t.game.rules t.game.maze a).2 = t' := by
    unfold Game.new
    rw [hon']
  have hgame : t.game = t'.game.renumbered s.table.game.runId := by
    rw [ht', ht]
    rfl
  unfold anew Table.renumbered
  rw [hnew, ← hgame]

/-- **A game whose maze was started over is as good as new.** Whatever was done before, what
is done afterwards with runs that are opened then has the same replies as in a sitting at a
new game with the same maze. Those who listen are told the same, and the game comes to the
same but for its number. In between, runs that were begun before may be asked for steps and
given up. -/
theorem sameFrom_reset (htell : tell.Passive) (hblind : tell.Blind) (rules : Rules) (maze : Maze)
    (audience a : σ) (os later : List Operation) {s₁ : Sitting σ}
    (hs : s = (performAll tell ⟨(Game.new tell rules maze audience).2, []⟩ os).2)
    (hs₁ : s₁ = (s.perform tell .reset).2) (hlater : ∀ o ∈ later, s.MayFollow o) :
    (s.perform tell .reset).1 = .ok .done ∧
      repliesSparing tell s s₁ later =
        ((s₁.anew tell a).performAll tell (later.filter s.spares)).1 ∧
      (s₁.performAll tell later).2.table.audience =
        ((s₁.anew tell a).performAll tell (later.filter s.spares)).2.table.audience ∧
      (s₁.performAll tell later).2.table.game =
        { ((s₁.anew tell a).performAll tell (later.filter s.spares)).2.table.game with
          runId := (s₁.performAll tell later).2.table.game.runId } := by
  subst hs₁
  have hmay := htell.mayFail
  have hknown := (accounted_new hmay rules maze audience).performAll hmay os
  rw [← hs] at hknown
  have hknown₁ := (hknown.perform hmay .reset).accounted
  obtain ⟨hdone, hrenewed⟩ := renewed_reset htell s a
  have hreset : s.perform tell .reset = (.ok .done, (s.perform tell .reset).2) :=
    Prod.ext hdone rfl
  obtain ⟨hruns, hanew⟩ := anew_of_perform hmay (.inl rfl) hreset
  have hover (name : String) (hbegun : s.Begun name) : (s.perform tell .reset).2.Over name := by
    obtain ⟨p, hp, hrun, hwait⟩ := hbegun
    have hp₁ : (s.perform tell .reset).2.run? name = some p := by
      unfold run?
      rw [hruns]
      exact hp
    refine ⟨⟨p, hp₁, hrun, fun i hi => ?_⟩, fun q hq => ?_⟩
    · exact Nat.lt_of_le_of_lt (hknown.le name i ⟨p, hp, hi⟩) hanew.number
    · cases hp₁.symm.trans hq
      exact hwait
  obtain ⟨hreplies, hall⟩ := hrenewed.performAll hknown₁ hover hmay hblind later hlater
  have htable := hall.table
  refine ⟨hdone, hreplies, by rw [htable]; rfl, ?_⟩
  rw [htable]
  rfl

end Sitting

theorem Listener.blind_recorder : Listener.recorder.Blind :=
  fun _ _ _ => rfl

namespace Sitting

/-- A sitting in which a run is begun. -/
def begunOnce : Sitting (List Notice) :=
  (performAll Listener.recorder ⟨(Game.new Listener.recorder {} Preset.easy.maze []).2, []⟩
    [.openBatch "first" "moveRight(); moveRight();", .next "first"]).2

/-- What is done after the maze was started over. -/
def followUp : List Operation :=
  [.openBatch "second" "moveRight();", .next "first", .next "second", .close "first",
    .drain "second"]

theorem mayFollow_followUp : ∀ o ∈ followUp, begunOnce.MayFollow o := by
  have hbegun : begunOnce.Begun "first" := by
    have hrun : (begunOnce.run? "first").map (fun p => (p.run, p.paces.length)) =
        some (.suspended { mode := .batch, runId := 2, index := 1, moves := [.right] }, 0) := by
      decide +kernel
    obtain ⟨p, hp, hp'⟩ := Option.map_eq_some_iff.mp hrun
    obtain ⟨hrun, hpaces⟩ := Prod.mk.inj hp'
    refine ⟨p, hp, by rw [hrun]; trivial, ?_⟩
    rw [List.eq_nil_of_length_eq_zero hpaces]
    simp
  intro o ho
  simp only [followUp, List.mem_cons, List.not_mem_nil, or_false] at ho
  rcases ho with rfl | rfl | rfl | rfl | rfl
  · exact .inl (by decide +kernel)
  · exact .inr ⟨_, hbegun, .inl rfl⟩
  · exact .inl (by decide +kernel)
  · exact .inr ⟨_, hbegun, .inr rfl⟩
  · exact .inl (by decide +kernel)

/-- The run that was begun before is asked for a step and given up while another goes on, and
the game has come to a number of its own. -/
theorem sameFrom_reset_begunOnce :
    Listener.recorder.Passive ∧ Listener.recorder.Blind ∧
      (∀ o ∈ followUp, begunOnce.MayFollow o) ∧
      (((begunOnce.perform Listener.recorder .reset).2.performAll Listener.recorder
        followUp).2.table.game.runId = 4 ∧
      repliesSparing Listener.recorder begunOnce (begunOnce.perform Listener.recorder .reset).2
          followUp =
        (((begunOnce.perform Listener.recorder .reset).2.anew Listener.recorder []).performAll
          Listener.recorder (followUp.filter begunOnce.spares)).1) :=
  ⟨Listener.passive_recorder, Listener.blind_recorder, mayFollow_followUp, by decide +kernel,
    (sameFrom_reset Listener.passive_recorder Listener.blind_recorder {} Preset.easy.maze [] []
      [.openBatch "first" "moveRight(); moveRight();", .next "first"] followUp rfl rfl
      mayFollow_followUp).2.1⟩

end Sitting

end ScriptedMaze
