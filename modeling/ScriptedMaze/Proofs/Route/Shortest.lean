import Mathlib
import ScriptedMaze.Proofs.Route.Invariant

/-!
# The way that is found is a shortest one

When a finished world comes first in the frontier, its score is the length of a
way to it, and no list of moves that finishes the start is shorter: such a list
finishes it at some move, with the robot on a flag, and there the frontier would
hold an entry that comes first (`Search.cost_le_of_finishes`). Blocked moves make
a list longer and nothing else, so that they need not be left out.

`Route.IsShortest` says what a shortest way is, and
`World.route?_isShortest` that whatever is found is one – from any world, be the
robot in the grid or not, and from the opening of a maze that was written down.
-/

namespace ScriptedMaze

namespace Route

/-- **A shortest way to a flag.** A finished world has only the empty one. -/
structure IsShortest (w : World) (way : List Step) : Prop where
  /-- No move is blocked, and each step names the point that the robot reaches. -/
  leads : Leads w way (w.moves (way.map Step.direction))
  /-- The last move finishes the world. -/
  finishes : (w.moves (way.map Step.direction)).finished = true
  /-- No earlier move does. -/
  not_before : ∀ n < way.length, (w.moves ((way.take n).map Step.direction)).finished = false
  /-- No list of moves that finishes the world is shorter, blocked moves counted. -/
  shortest : ∀ ds, (w.moves ds).finished = true → way.length ≤ ds.length

/-- A way that finishes the world, and than which none is shorter, finishes it
with its last move only. -/
theorem isShortest_of_leads {w v : World} {way : List Step} (hleads : Leads w way v)
    (hv : v.finished = true)
    (hmin : ∀ ds, (w.moves ds).finished = true → way.length ≤ ds.length) :
    IsShortest w way where
  leads := by
    rw [hleads.moves_eq]
    exact hleads
  finishes := by
    rw [hleads.moves_eq]
    exact hv
  not_before := by
    intro n hn
    by_contra hfin
    have hle := hmin _ (Bool.not_eq_false _ ▸ hfin)
    rw [List.length_map, List.length_take] at hle
    omega
  shortest := hmin

namespace Search

variable {w₀ : World} {s : Search} {budget : Int}

/-- **The first entry, when its world is finished, costs no more than any list of
moves that finishes the start.** -/
theorem cost_le_of_finishes (hs : Sound w₀ s) (hc : Covered ∅ s) {f : Entry} {rest : Frontier}
    (hp : s.frontier.pop = some (f, rest)) (hcost : f.cost = s.scoreOf f.world)
    (hf₀ : w₀.finished = false) {ds : List Direction} (hds : (w₀.moves ds).finished = true) :
    f.cost ≤ ds.length := by
  obtain ⟨es, hes, hfin, hzero⟩ := World.exists_finishing_prefix hf₀ hds
  refine le_trans ?_ hes.length_le
  have hmem : f ∈ s.frontier.toList := (Frontier.mem_of_pop hp).mpr (Or.inl rfl)
  obtain ⟨hest, -⟩ := hs.entry f hmem
  -- an entry that promises a way of at most so many moves comes no earlier
  have hfirst : ∀ x ∈ s.frontier.toList, x.estimate ≤ es.length → f.cost ≤ es.length := by
    intro x hx hle
    have hmin := Frontier.estimate_le_of_pop hs.ordered hp hx
    omega
  rcases score_le_or_entry hs hc es with hle | ⟨x, hx, hle⟩
  · by_cases hun : s.scoreOf (w₀.moves es) < unreached
    · rcases hc _ _ (score_of_scoreOf_lt hun) with hno | ⟨x, hx, hw, hxc⟩ | ⟨hopen, -⟩
      · exact absurd hno (Set.notMem_empty _)
      · obtain ⟨hxest, -⟩ := hs.entry x hx
        rw [hw, hzero] at hxest
        exact hfirst x hx (by omega)
      · exact absurd (hopen.symm.trans hfin) Bool.false_ne_true
    · -- the list is as long as the score that stands for none
      have hle' := hs.scoreOf_le f.world
      omega
  · rw [hzero] at hle
    exact hfirst x hx hle

theorem isShortest_of_ends {ws : List World} {way : List Step} (hf₀ : w₀.finished = false)
    (h : Rounds budget (start w₀) ws s) (hend : Ends budget s (some way)) :
    IsShortest w₀ way := by
  obtain ⟨hs, hc⟩ := h.spec
  cases hend with
  | @found f rest hp hcost hf =>
    have hmem : f ∈ s.frontier.toList := (Frontier.mem_of_pop hp).mpr (Or.inl rfl)
    obtain ⟨way, hway, hleads, hlen⟩ := hs.trail (hs.score_of_mem hmem hcost) le_rfl []
    rw [hway, List.append_nil]
    exact isShortest_of_leads hleads hf fun ds hds =>
      hlen.trans (cost_le_of_finishes hs hc hp hcost hf₀ hds)

/-! ### Searches of a few rounds -/

/-- What a search comes to if it ends within so many rounds. -/
def runWithin (budget : Int) : (rounds : Nat) → Search → Option (Option (List Step))
  | 0, _ => none
  | n + 1, s =>
    match s.round budget with
    | .exhausted => some none
    | .found way => some (some way)
    | .gaveUp => some none
    | .goesOn s' => runWithin budget n s'

theorem run_eq_of_runWithin {n : Nat} {r : Option (List Step)}
    (h : s.runWithin budget n = some r) : s.run budget = r := by
  induction n generalizing s with
  | zero => cases h
  | succ n ih =>
    rw [runWithin] at h
    rw [run]
    split at h <;> split <;> simp_all

end Search

end Route

/-- A corridor with a flag behind a door, and the key on the other side. -/
def locked : Maze where
  name := "locked"
  grid := {
    width := 4
    rows := [[.key, .start, .door, .flag]]
    rows_ne_nil := by decide
    length_eq_width := by decide }
  start := ⟨1, 0⟩

namespace World

open Route

/-- A way that is found from a world is a shortest one. -/
theorem isShortest_of_route? {budget : Int} {w : World} {way : List Step}
    (h : w.route? budget = some way) : IsShortest w way := by
  rw [route?] at h
  cases hf : w.finished with
  | true =>
    rw [hf, if_pos rfl] at h
    cases h
    exact isShortest_of_leads (rfl : Leads w [] w) hf fun ds _ => Nat.zero_le _
  | false =>
    rw [hf, if_neg Bool.false_ne_true] at h
    obtain ⟨ws, s, hrounds, hend⟩ := Search.exists_rounds_ends
      (.none : Search.Rounds budget (Search.start w) [] (Search.start w))
    rw [h] at hend
    exact Search.isShortest_of_ends hf hrounds hend

/-- **Whatever way is found is a shortest one**, within any budget, from any world
and from the opening of a maze that was written down. -/
theorem route?_isShortest (budget : Int) :
    (∀ (w : World) (way : List Step), w.route? budget = some way → IsShortest w way) ∧
      ∀ (b : Blueprint) (m : Maze) (way : List Step), b.build = .ok m →
        m.opening.route? budget = some way →
          b.grid = .ok m.grid ∧ IsShortest { grid := m.grid, robot := b.start } way := by
  refine ⟨fun _ _ => isShortest_of_route?, fun b m way hb h => ?_⟩
  cases hg : b.grid with
  | error f =>
    rw [Blueprint.build, hg] at hb
    cases hb
  | ok g =>
    rw [Blueprint.build, hg] at hb
    cases hb
    exact ⟨rfl, isShortest_of_route? h⟩

/-- The robot turns back for the key before it goes through the door. -/
theorem route?_isShortest_locked :
    locked.blueprint.build = .ok locked ∧ ∃ way : List Step,
      way.map Step.direction = [.left, .right, .right, .right] ∧
        locked.opening.route? 10 = some way ∧ IsShortest locked.opening way ∧
        IsShortest { grid := locked.grid, robot := locked.start } way := by
  have hbuild : locked.blueprint.build = .ok locked := by decide
  have hway : locked.opening.route? 10 =
      some [⟨.left, ⟨0, 0⟩⟩, ⟨.right, ⟨1, 0⟩⟩, ⟨.right, ⟨2, 0⟩⟩, ⟨.right, ⟨3, 0⟩⟩] :=
    Search.run_eq_of_runWithin (n := 6) (by cbv)
  exact ⟨hbuild, _, rfl, hway, (route?_isShortest 10).1 _ _ hway,
    ((route?_isShortest 10).2 _ _ _ hbuild hway).2⟩

end World

end ScriptedMaze
