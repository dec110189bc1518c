import ScriptedMaze.Proofs.Route.Shortest

/-!
# Every world can be traced back to the start

The origins of a search are written anew whenever a world is come upon with a
lower score, also that of a world from which others were come upon already. Still
they never run in a circle: the score of a world is more than that of its origin
(`Search.Traceable.origin`), before a round, and in its midst after whatever
moves were tried. Scores only ever drop, so that an origin noted under a higher
score stays below.

So the way back from any world with a score comes to an end
(`Search.GoesBack`). It ends at the start, and it takes no more steps than the
score; read forwards, its steps lead from the start to the world. The search
itself follows the origins for as many steps as the score says, and no more are
needed.
-/

namespace ScriptedMaze

namespace Route.Search

variable {w₀ : World} {s s' : Search} {budget : Int} {ws : List World}

/-- **A search whose origins lead back to its start.** -/
structure Traceable (w₀ : World) (s : Search) : Prop where
  score_start : s.score[w₀]? = some 0
  origin_start : s.origin[w₀]? = none
  /-- The origin of a world has a lower score, and its move is not blocked and
  leads to the world and to the point that the step names. -/
  origin : ∀ (v u : World) (st : Step), s.origin[v]? = some (u, st) → ∃ m n : Nat,
    s.score[u]? = some m ∧ s.score[v]? = some n ∧ m + 1 ≤ n ∧
    (∃ e, u.move st.direction = (v, .moved e)) ∧ st.reached = v.robot
  /-- The way back from a world with a score ends at the start, in no more steps
  than the score, and is what the search reads off. -/
  way_back : ∀ (v : World) (n : Nat), s.score[v]? = some n → ∃ way,
    GoesBack s.origin v w₀ way ∧ way.length ≤ n ∧ Leads w₀ way v ∧
    ∀ k, n ≤ k → trail s.origin k v [] = way

theorem Sound.traceable (h : Sound w₀ s) : Traceable w₀ s where
  score_start := h.score_start
  origin_start := h.origin_start
  origin := by
    intro v u st ho
    obtain ⟨m, n, hm, hn, hle, -, hmove, hst⟩ := h.origin v u st ho
    exact ⟨m, n, hm, hn, hle, hmove, hst⟩
  way_back := by
    intro v n hv
    obtain ⟨way, hback, hleads, hlen⟩ := h.goesBack hv
    refine ⟨way, hback, hlen, hleads, fun k hk => ?_⟩
    rw [hback.trail_eq (hlen.trans hk), List.append_nil]

/-- **At every round, and in the midst of it, every world can be traced back**: in
front of a round, and after any moves that were tried from the world the round
goes on from. -/
theorem traceable_of_rounds (h : Rounds budget (start w₀) ws s) :
    Traceable w₀ s ∧
      ∀ (f : Entry) (rest : Frontier), s.frontier.pop = some (f, rest) →
        f.cost = s.scoreOf f.world → f.world.finished = false → ∀ ds : List Direction,
          Traceable w₀ (ds.foldl (tryMove f.world f.cost)
            { s with frontier := rest, expanded := s.expanded + 1 }) := by
  obtain ⟨hs, -⟩ := h.spec
  refine ⟨hs.traceable, fun f rest hp hcost hf ds => ?_⟩
  have hmem : f ∈ s.frontier.toList := (Frontier.mem_of_pop hp).mpr (Or.inl rfl)
  have hs' := (foldl_tryMove (P := fun _ => True) hf (fun _ _ _ _ _ _ _ _ _ => trivial) ds
    (hs.of_pop hp (s.expanded + 1)) (hs.score_of_mem hmem hcost) trivial).1
  exact hs'.traceable

/-! ### Searches after a few rounds -/

/-- The search after so many rounds, if they all go on. -/
def after (budget : Int) (s : Search) : (rounds : Nat) → Option Search
  | 0 => some s
  | n + 1 =>
    match after budget s n with
    | none => none
    | some s₁ =>
      match s₁.round budget with
      | .goesOn s₂ => some s₂
      | _ => none

theorem exists_rounds_of_after {n : Nat} (h : after budget s n = some s') :
    ∃ ws, Rounds budget s ws s' := by
  induction n generalizing s' with
  | zero =>
    cases h
    exact ⟨[], .none⟩
  | succ n ih =>
    rw [after] at h
    split at h
    · cases h
    · rename_i s₁ hs₁
      obtain ⟨ws, hrounds⟩ := ih hs₁
      split at h
      · rename_i s₂ hround
        cases h
        exact ⟨_, hrounds.next hround⟩
      · cases h

/-- After three rounds the search is about to go on from the open door, and the
way back from there goes by the key. -/
theorem traceable_of_rounds_locked : ∃ ws s f rest,
    Rounds 10 (start locked.opening) ws s ∧ s.frontier.pop = some (f, rest) ∧
      f.cost = s.scoreOf f.world ∧ f.world.finished = false ∧
      (trail s.origin 3 f.world []).map Step.direction = [.left, .right, .right] ∧
      Traceable locked.opening s ∧
      Traceable locked.opening ([.right].foldl (tryMove f.world f.cost)
        { s with frontier := rest, expanded := s.expanded + 1 }) := by
  have hround : (after 10 (start locked.opening) 3).any (fun s =>
      s.frontier.pop.any fun (f, _) => f.cost == s.scoreOf f.world && !f.world.finished &&
        (trail s.origin 3 f.world []).map Step.direction == [.left, .right, .right]) = true := by
    cbv
  rw [Option.any_eq_true] at hround
  obtain ⟨s, hs, htop⟩ := hround
  rw [Option.any_eq_true] at htop
  obtain ⟨⟨f, rest⟩, hp, htop⟩ := htop
  simp only [Bool.and_eq_true, beq_iff_eq, Bool.not_eq_true'] at htop
  obtain ⟨⟨hcost, hf⟩, hway⟩ := htop
  obtain ⟨ws, hrounds⟩ := exists_rounds_of_after hs
  exact ⟨ws, s, f, rest, hrounds, hp, hcost, hf, hway, (traceable_of_rounds hrounds).1,
    (traceable_of_rounds hrounds).2 f rest hp hcost hf [.right]⟩

end Route.Search

end ScriptedMaze
