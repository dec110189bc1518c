import ScriptedMaze.Proofs.Route.Shortest

/-!
# The estimate of a way

What a search takes for the rest of a way is the distance from the robot to the
nearest flag (`World.flagDistance`). From whatever world one looks, this is a
good estimate.

* It is *consistent*: a move that is not blocked brings the robot nearer by at
  most one (`World.flagDistance_le_move`), and so a list of moves by at most its
  length (`World.flagDistance_le_moves`). Keys and doors turn into floors on the
  way, but no flag comes or goes.
* It is *admissible*: moves of which the last enters a flag are no fewer than it
  says, because it is zero where they end.

None of this asks whether the world is finished, whether the robot stands in the
grid, or whether there is a flag.
-/

namespace ScriptedMaze

namespace World

variable {w : World} {d : Direction}

/-- **A move that enters a flag**: the robot may go there, and a flag is what it
finds. -/
def EntersFlag (w : World) (d : Direction) : Prop :=
  w.blocked (w.target d) = false ∧ w.grid.cell? (w.target d) = some .flag

/-- To enter a flag is to be told so. -/
theorem entersFlag_iff : w.EntersFlag d ↔ (w.move d).2 = .moved .flagReached := by
  rw [EntersFlag]
  rcases w.move_cases d with ⟨hb, hm⟩ | ⟨hb, -, w', e, hm, h⟩
  · simp [hb, hm]
  · rw [hm]
    cases h with
    | key hk => simp [hk]
    | door hk => simp [hk]
    | flag hk => simp [hb, hk]
    | plain hk => rcases hk with hk | hk <;> simp [hk]

/-- **A move that enters a flag leaves nothing of the way.** -/
theorem flagDistance_of_entersFlag (h : w.EntersFlag d) :
    (w.move d).1.flagDistance (w.move d).1.robot = 0 := by
  obtain ⟨hb, hflag⟩ := h
  rcases w.move_cases d with ⟨hb', -⟩ | ⟨-, hin, w', e, hm, hent⟩
  · exact absurd (hb.symm.trans hb') Bool.false_ne_true
  · rw [hm]
    change w'.flagDistance w'.robot = 0
    rw [hent.robot]
    exact flagDistance_of_mem ((hent.mem_flags hin _).mpr (Grid.mem_places.mpr ⟨hin, hflag⟩))

/-- A list of moves comes nearer to the nearest flag by at most its length. -/
theorem flagDistance_le_moves (w : World) (ds : List Direction) :
    w.flagDistance w.robot ≤ ds.length + (w.moves ds).flagDistance (w.moves ds).robot := by
  induction ds generalizing w with
  | nil => simp
  | cons d ds ih =>
    have hmove := w.flagDistance_le_move d
    have hrest := ih (w.move d).1
    rw [moves_cons, List.length_cons]
    omega

/-- **The estimate is consistent and admissible** on every world: a move that is
not blocked lowers it by at most one, it is at most the length of any list of
moves of which the last enters a flag, and it is zero behind such a move. -/
theorem flagDistance_consistent_and_admissible :
    (∀ (w u : World) (d : Direction) (e : Effect), w.move d = (u, .moved e) →
      w.flagDistance w.robot ≤ 1 + u.flagDistance u.robot) ∧
    (∀ (w : World) (ds : List Direction) (d : Direction), (w.moves ds).EntersFlag d →
      w.flagDistance w.robot ≤ (ds ++ [d]).length) ∧
    ∀ (w : World) (ds : List Direction) (d : Direction), (w.moves ds).EntersFlag d →
      (w.moves (ds ++ [d])).flagDistance (w.moves (ds ++ [d])).robot = 0 := by
  have hzero : ∀ (w : World) (ds : List Direction) (d : Direction), (w.moves ds).EntersFlag d →
      (w.moves (ds ++ [d])).flagDistance (w.moves (ds ++ [d])).robot = 0 := by
    intro w ds d h
    rw [moves_concat]
    exact flagDistance_of_entersFlag h
  refine ⟨?_, ?_, hzero⟩
  · intro w u d e hm
    have hmove := w.flagDistance_le_move d
    rw [hm] at hmove
    rw [Nat.add_comm]
    exact hmove
  · intro w ds d h
    have hle := w.flagDistance_le_moves (ds ++ [d])
    rw [hzero w ds d h] at hle
    exact hle

/-- The flag behind the door is two points away, and four moves lead there: the
first of them goes away from it. -/
theorem flagDistance_consistent_and_admissible_locked :
    locked.opening.flagDistance locked.opening.robot = 2 ∧
      (∃ u, locked.opening.move .left = (u, .moved .keyCollected) ∧
        locked.opening.flagDistance locked.opening.robot ≤ 1 + u.flagDistance u.robot) ∧
      (locked.opening.moves [.left, .right, .right]).EntersFlag .right ∧
      locked.opening.flagDistance locked.opening.robot ≤
        ([.left, .right, .right, .right] : List Direction).length ∧
      (locked.opening.moves [.left, .right, .right, .right]).flagDistance
        (locked.opening.moves [.left, .right, .right, .right]).robot = 0 := by
  have hmove : locked.opening.move .left =
      ((locked.opening.move .left).1, .moved .keyCollected) := by decide
  have hflag : (locked.opening.moves [.left, .right, .right]).EntersFlag .right :=
    entersFlag_iff.mpr (by decide)
  obtain ⟨hconsistent, hadmissible, hzero⟩ := flagDistance_consistent_and_admissible
  refine ⟨by decide, ⟨_, hmove, ?_⟩, hflag, ?_, ?_⟩
  · exact hconsistent locked.opening _ .left .keyCollected hmove
  · exact hadmissible locked.opening [.left, .right, .right] .right hflag
  · exact hzero locked.opening [.left, .right, .right] .right hflag

end World

end ScriptedMaze
