import ScriptedMaze.Proofs.Maze.Moves
import ScriptedMaze.Proofs.Route.Order

/-!
# What a search knows at every round

A search that starts at a world `w₀` keeps two promises from round to round.

* **What it notes is true** (`Search.Sound`): the score of a world is more than
  that of the world it was come upon from, whose move leads to it; the start has
  the score 0 and was come upon from nowhere; every entry of the frontier is for
  a world with a score, and estimates the way through that world.
* **Nothing is forgotten** (`Search.Covered`): every world with a score is still
  to be gone on from, or it has been gone on from, and then the worlds behind it
  have scores at most one higher.

Both are shown for one move that is tried, then for the four moves of a world,
then for a round, and so for all rounds (`Search.Rounds.sound`,
`Search.Rounds.covered`). While the moves of a world are tried, that one world
is neither to be gone on from nor done with; `Covered` names the worlds that are
let off.

Two things follow. The origins lead back to the start in no more moves than the
score (`Search.Sound.goesBack`). And any list of moves whatsoever is either no
shorter than the score of the world it leads to, or some entry of the frontier
promises a way that is as short (`Search.score_le_or_entry`): this is what makes
the first entry the one to go on from.
-/

namespace ScriptedMaze

namespace Route

/-- **The steps lead from one world to another**: no move is blocked, and each
step names the point it reaches. -/
def Leads (w : World) : List Step → World → Prop
  | [], v => w = v
  | s :: rest, v => ∃ u e, w.move s.direction = (u, .moved e) ∧ s.reached = u.robot ∧
      Leads u rest v

theorem Leads.concat {w v u : World} {way : List Step} {s : Step} {e : Effect}
    (h : Leads w way v) (hm : v.move s.direction = (u, .moved e)) (hs : s.reached = u.robot) :
    Leads w (way ++ [s]) u := by
  induction way generalizing w with
  | nil =>
    obtain rfl : w = v := h
    exact ⟨u, e, hm, hs, rfl⟩
  | cons t rest ih =>
    obtain ⟨x, f, hx, ht, hrest⟩ := h
    exact ⟨x, f, hx, ht, ih hrest⟩

/-- Making the moves of the steps arrives where they lead. -/
theorem Leads.moves_eq {w v : World} {way : List Step} (h : Leads w way v) :
    w.moves (way.map Step.direction) = v := by
  induction way generalizing w with
  | nil => exact h
  | cons t rest ih =>
    obtain ⟨x, f, hx, -, hrest⟩ := h
    rw [List.map_cons, World.moves_cons, hx]
    exact ih hrest

namespace Search

variable {w₀ u v w : World} {s s' : Search} {budget : Int} {d : Direction} {e : Effect}
  {m n cost : Nat} {X : Set World}

/-! ### The rounds of a search -/

/-- The world that a round goes on from, unless it only drops an entry. -/
def worldsGoneOnFrom (s : Search) : List World :=
  match s.frontier.pop with
  | some (e, _) => if e.cost = s.scoreOf e.world then [e.world] else []
  | none => []

/-- **Rounds**: those from `s` on that have led to `s'`, and the worlds that
they went on from. -/
inductive Rounds (budget : Int) (s : Search) : List World → Search → Prop
  /-- No round yet. -/
  | none : Rounds budget s [] s
  /-- One more round. -/
  | next {ws : List World} {s₁ s₂ : Search} : Rounds budget s ws s₁ →
      s₁.round budget = .goesOn s₂ → Rounds budget s (ws ++ s₁.worldsGoneOnFrom) s₂

/-- **A round that goes on** drops an entry that is out of date, or goes on from
a world that is not finished. -/
theorem round_goesOn_cases (h : s.round budget = .goesOn s') :
    ∃ e rest, s.frontier.pop = some (e, rest) ∧
      (e.cost ≠ s.scoreOf e.world ∧ s.worldsGoneOnFrom = [] ∧ s' = { s with frontier := rest } ∨
        e.cost = s.scoreOf e.world ∧ s.worldsGoneOnFrom = [e.world] ∧ e.world.finished = false ∧
          ¬budget < s.expanded ∧ s' = ({ s with frontier := rest }).goOn e.world e.cost) := by
  cases hp : s.frontier.pop with
  | none => simp [round, hp] at h
  | some top =>
    obtain ⟨e, rest⟩ := top
    refine ⟨e, rest, rfl, ?_⟩
    simp only [round, hp] at h
    by_cases hcost : e.cost = s.scoreOf e.world
    · rw [if_neg (not_not.mpr hcost)] at h
      split at h
      · cases h
      · rename_i hf
        split at h
        · cases h
        · rename_i hb
          cases h
          exact Or.inr ⟨hcost, by simp [worldsGoneOnFrom, hp, hcost],
            Bool.eq_false_iff.mpr hf, hb, rfl⟩
    · rw [if_pos hcost] at h
      cases h
      exact Or.inl ⟨hcost, by simp [worldsGoneOnFrom, hp, hcost], rfl⟩

/-- How a search ends: nothing is left, or a finished world comes first, or the
budget is used up. -/
inductive Ends (budget : Int) (s : Search) : Option (List Step) → Prop
  | exhausted : s.frontier.pop = .none → Ends budget s .none
  | found {e : Entry} {rest : Frontier} : s.frontier.pop = some (e, rest) →
      e.cost = s.scoreOf e.world → e.world.finished = true →
      Ends budget s (some (trail s.origin e.cost e.world []))
  | gaveUp {e : Entry} {rest : Frontier} : s.frontier.pop = some (e, rest) →
      e.cost = s.scoreOf e.world → e.world.finished = false → budget < s.expanded →
      Ends budget s .none

/-- What a round that does not go on comes to. -/
theorem ends_of_round (budget : Int) (s : Search) :
    match s.round budget with
    | .exhausted => Ends budget s none
    | .found way => Ends budget s (some way)
    | .gaveUp => Ends budget s none
    | .goesOn _ => True := by
  cases hp : s.frontier.pop with
  | none =>
    simp only [round, hp]
    exact .exhausted hp
  | some top =>
    obtain ⟨e, rest⟩ := top
    simp only [round, hp]
    by_cases hcost : e.cost = s.scoreOf e.world
    · rw [if_neg (not_not.mpr hcost)]
      cases hf : e.world.finished with
      | true => exact .found hp hcost hf
      | false =>
        by_cases hb : budget < s.expanded
        · simp only [Bool.false_eq_true, if_false, if_pos hb]
          exact .gaveUp hp hcost hf hb
        · simp only [Bool.false_eq_true, if_false, if_neg hb]
    · rw [if_pos hcost]
      trivial

/-- **A search that is run goes through rounds and ends.** -/
theorem exists_rounds_ends {ws : List World} {s₀ : Search} (h : Rounds budget s₀ ws s) :
    ∃ ws' s', Rounds budget s₀ ws' s' ∧ Ends budget s' (s.run budget) := by
  fun_induction run budget s generalizing ws with
  | case1 s hr =>
    have hend := ends_of_round budget s
    rw [hr] at hend
    exact ⟨ws, s, h, hend⟩
  | case2 s way hr =>
    have hend := ends_of_round budget s
    rw [hr] at hend
    exact ⟨ws, s, h, hend⟩
  | case3 s hr =>
    have hend := ends_of_round budget s
    rw [hr] at hend
    exact ⟨ws, s, h, hend⟩
  | case4 s s₁ hr ih => exact ih (h.next hr)

/-! ### What is noted is true -/

/-- An entry of the frontier that is not out of date. -/
def Open (s : Search) (v : World) (n : Nat) : Prop :=
  ∃ e ∈ s.frontier.toList, e.world = v ∧ e.cost = n

/-- A world that was gone on from: those behind it have scores. -/
def Closed (s : Search) (v : World) (n : Nat) : Prop :=
  v.finished = false ∧ ∀ d u e, v.move d = (u, .moved e) → s.scoreOf u ≤ n + 1

/-- **What a search notes is true**, when it starts at `w₀`. -/
structure Sound (w₀ : World) (s : Search) : Prop where
  ordered : s.frontier.Ordered
  score_start : s.score[w₀]? = some 0
  origin_start : s.origin[w₀]? = none
  /-- No score reaches the one that stands for none. -/
  score_lt : ∀ (v : World) (n : Nat), s.score[v]? = some n → n < unreached
  /-- Every entry is for a world with a score, and estimates the way through it. -/
  entry : ∀ e ∈ s.frontier.toList, e.estimate = e.cost + e.world.flagDistance e.world.robot ∧
    ∃ n, s.score[e.world]? = some n ∧ n ≤ e.cost
  /-- Every world with a score is the start or was come upon. -/
  come_upon : ∀ (v : World) (n : Nat), s.score[v]? = some n → v = w₀ ∨ ∃ o, s.origin[v]? = some o
  /-- A move of an unfinished world with a lower score leads to every world that
  was come upon. -/
  origin : ∀ (v u : World) (st : Step), s.origin[v]? = some (u, st) → ∃ m n : Nat,
    s.score[u]? = some m ∧ s.score[v]? = some n ∧ m + 1 ≤ n ∧ u.finished = false ∧
    (∃ e, u.move st.direction = (v, .moved e)) ∧ st.reached = v.robot

/-- **Nothing is forgotten**: a world with a score is to be gone on from or was
gone on from, unless it is let off. -/
def Covered (X : Set World) (s : Search) : Prop :=
  ∀ (v : World) (n : Nat), s.score[v]? = some n → v ∈ X ∨ s.Open v n ∨ s.Closed v n

theorem scoreOf_of_score (h : s.score[v]? = some n) : s.scoreOf v = n := by
  rw [scoreOf, Std.HashMap.getD_eq_getD_getElem?, h, Option.getD_some]

theorem Sound.scoreOf_le (h : Sound w₀ s) (v : World) : s.scoreOf v ≤ unreached := by
  rw [scoreOf, Std.HashMap.getD_eq_getD_getElem?]
  cases hv : s.score[v]? with
  | none => exact le_rfl
  | some n => exact (h.score_lt v n hv).le

/-- A world whose score is lower than that of a world without one has a score. -/
theorem score_of_scoreOf_lt (h : s.scoreOf v < unreached) : s.score[v]? = some (s.scoreOf v) := by
  cases hv : s.score[v]? with
  | none =>
    rw [scoreOf, Std.HashMap.getD_eq_getD_getElem?, hv, Option.getD_none] at h
    exact absurd h (lt_irrefl _)
  | some n => rw [scoreOf_of_score hv]

/-- The first entry, if it is not out of date, is for a world with that score. -/
theorem Sound.score_of_mem (h : Sound w₀ s) {e : Entry} (he : e ∈ s.frontier.toList)
    (hcost : e.cost = s.scoreOf e.world) : s.score[e.world]? = some e.cost := by
  obtain ⟨-, n, hn, -⟩ := h.entry e he
  rw [hcost, scoreOf_of_score hn, hn]

theorem sound_start (w₀ : World) : Sound w₀ (start w₀) where
  ordered := Frontier.ordered_push (h := .empty) trivial _
  score_start := by simp [start]
  origin_start := by simp [start]
  score_lt := by
    intro v n h
    simp only [start, Std.HashMap.getElem?_insert, Std.HashMap.getElem?_empty] at h
    split at h
    · cases h
      decide
    · cases h
  entry := by
    intro e he
    rw [start, Frontier.mem_push] at he
    rcases he with rfl | he
    · exact ⟨(Nat.zero_add _).symm, 0, by simp [start], le_rfl⟩
    · simp [Frontier.toList] at he
  come_upon := by
    intro v n h
    simp only [start, Std.HashMap.getElem?_insert, Std.HashMap.getElem?_empty] at h
    split at h
    · rename_i hv
      exact Or.inl (eq_of_beq hv).symm
    · cases h
  origin := by
    intro v u st h
    simp [start] at h

theorem covered_start (w₀ : World) : Covered ∅ (start w₀) := by
  intro v n h
  simp only [start, Std.HashMap.getElem?_insert, Std.HashMap.getElem?_empty] at h
  split at h
  · rename_i hv
    cases h
    exact Or.inr (Or.inl ⟨_, Frontier.mem_push.mpr (Or.inl rfl), eq_of_beq hv, rfl⟩)
  · cases h

/-! ### One move that is tried -/

theorem score_discover (s : Search) (w : World) (d : Direction) (u : World) (n : Nat) (v : World) :
    (s.discover w d u n).score[v]? = if u = v then some n else s.score[v]? := by
  simp [discover, Std.HashMap.getElem?_insert]

theorem origin_discover (s : Search) (w : World) (d : Direction) (u : World) (n : Nat)
    (v : World) : (s.discover w d u n).origin[v]? =
      if u = v then some (w, ⟨d, u.robot⟩) else s.origin[v]? := by
  simp [discover, Std.HashMap.getElem?_insert]

theorem scoreOf_discover (s : Search) (w : World) (d : Direction) (u : World) (n : Nat)
    (v : World) : (s.discover w d u n).scoreOf v = if u = v then n else s.scoreOf v := by
  simp [discover, scoreOf, Std.HashMap.getD_insert]

theorem mem_frontier_discover {s : Search} {w : World} {d : Direction} {u : World} {n : Nat}
    {f : Entry} : f ∈ (s.discover w d u n).frontier.toList ↔
      f = ⟨n + u.flagDistance u.robot, n, s.entries, u⟩ ∨ f ∈ s.frontier.toList :=
  Frontier.mem_push

/-- **A move that is tried** comes upon a world with a lower score, or it changes
nothing, because the world it leads to has no higher score already. -/
theorem tryMove_cases (w : World) (cost : Nat) (s : Search) (d : Direction) :
    (tryMove w cost s d = s ∧ ∀ u e, w.move d = (u, .moved e) → s.scoreOf u ≤ cost + 1) ∨
      ∃ u e, w.move d = (u, .moved e) ∧ cost + 1 < s.scoreOf u ∧
        tryMove w cost s d = s.discover w d u (cost + 1) := by
  rcases hm : w.move d with ⟨u, o⟩
  cases o with
  | blocked =>
    refine Or.inl ⟨by simp [tryMove, hm], fun u' e h => ?_⟩
    cases h
  | moved e =>
    by_cases hlt : cost + 1 < s.scoreOf u
    · exact Or.inr ⟨u, e, rfl, hlt, by simp [tryMove, hm, hlt]⟩
    · refine Or.inl ⟨by simp [tryMove, hm, hlt], fun u' e' h => ?_⟩
      cases h
      exact not_lt.mp hlt

/-- What is come upon is noted truly. -/
theorem Sound.discover (h : Sound w₀ s) (hw : s.score[w]? = some cost) (hf : w.finished = false)
    (hm : w.move d = (u, .moved e)) (hlt : cost + 1 < s.scoreOf u) :
    Sound w₀ (s.discover w d u (cost + 1)) := by
  have hu₀ : u ≠ w₀ := by
    rintro rfl
    rw [scoreOf_of_score h.score_start] at hlt
    omega
  have huw : u ≠ w := by
    rintro rfl
    rw [scoreOf_of_score hw] at hlt
    omega
  -- a score only ever drops
  have hdrop : ∀ (v : World) (n : Nat), s.score[v]? = some n →
      ∃ n', (s.discover w d u (cost + 1)).score[v]? = some n' ∧ n' ≤ n := by
    intro v n hv
    rw [score_discover]
    by_cases huv : u = v
    · rw [if_pos huv]
      rw [huv, scoreOf_of_score hv] at hlt
      exact ⟨cost + 1, rfl, hlt.le⟩
    · rw [if_neg huv]
      exact ⟨n, hv, le_rfl⟩
  constructor
  case ordered => exact Frontier.ordered_push h.ordered _
  case score_start => rw [score_discover, if_neg hu₀, h.score_start]
  case origin_start => rw [origin_discover, if_neg hu₀, h.origin_start]
  case score_lt =>
    intro v n hv
    rw [score_discover] at hv
    split at hv
    · cases hv
      exact hlt.trans_le (h.scoreOf_le u)
    · exact h.score_lt v n hv
  case entry =>
    intro f hmem
    rcases mem_frontier_discover.mp hmem with rfl | hmem
    · exact ⟨rfl, cost + 1, by rw [score_discover, if_pos rfl], le_rfl⟩
    · obtain ⟨hest, n, hn, hle⟩ := h.entry f hmem
      obtain ⟨n', hn', hle'⟩ := hdrop _ n hn
      exact ⟨hest, n', hn', hle'.trans hle⟩
  case come_upon =>
    intro v n hv
    rw [origin_discover]
    rw [score_discover] at hv
    split
    · exact Or.inr ⟨_, rfl⟩
    · rename_i huv
      rw [if_neg huv] at hv
      exact h.come_upon v n hv
  case origin =>
    intro v x st hv
    rw [origin_discover] at hv
    split at hv
    · rename_i huv
      cases hv
      refine ⟨cost, cost + 1, ?_, ?_, le_rfl, hf, ⟨e, huv ▸ hm⟩, huv ▸ rfl⟩
      · rw [score_discover, if_neg huw, hw]
      · rw [score_discover, if_pos huv]
    · rename_i huv
      obtain ⟨m, n, hx, hn, hle, hrest⟩ := h.origin v x st hv
      obtain ⟨m', hm', hle'⟩ := hdrop x m hx
      exact ⟨m', n, hm', by rw [score_discover, if_neg huv, hn], by omega, hrest⟩

theorem scoreOf_discover_le (hlt : n < s.scoreOf u) (v : World) :
    (s.discover w d u n).scoreOf v ≤ s.scoreOf v := by
  rw [scoreOf_discover]
  split
  · rename_i huv
    rw [← huv]
    exact hlt.le
  · exact le_rfl

/-- Coming upon a world forgets nothing. -/
theorem Covered.discover (h : Covered X s) (hlt : n < s.scoreOf u) :
    Covered X (s.discover w d u n) := by
  intro v k hv
  rw [score_discover] at hv
  split at hv
  · rename_i huv
    cases hv
    exact Or.inr (Or.inl ⟨_, mem_frontier_discover.mpr (Or.inl rfl), huv, rfl⟩)
  · rcases h v k hv with hX | ⟨f, hmem, hf⟩ | ⟨hfin, hnext⟩
    · exact Or.inl hX
    · exact Or.inr (Or.inl ⟨f, mem_frontier_discover.mpr (Or.inr hmem), hf⟩)
    · exact Or.inr (Or.inr ⟨hfin, fun d' x e' hx =>
        (scoreOf_discover_le hlt x).trans (hnext d' x e' hx)⟩)

/-! ### The moves of a world -/

/-- **Whatever comes upon a world keeps, trying moves keeps**; the world that the
moves are made from keeps its score. -/
theorem foldl_tryMove {P : Search → Prop} (hf : w.finished = false)
    (step : ∀ s d u e, Sound w₀ s → s.score[w]? = some cost → P s → w.move d = (u, .moved e) →
      cost + 1 < s.scoreOf u → P (s.discover w d u (cost + 1)))
    (ds : List Direction) (hs : Sound w₀ s) (hw : s.score[w]? = some cost) (hP : P s) :
    Sound w₀ (ds.foldl (tryMove w cost) s) ∧
      (ds.foldl (tryMove w cost) s).score[w]? = some cost ∧ P (ds.foldl (tryMove w cost) s) := by
  induction ds generalizing s with
  | nil => exact ⟨hs, hw, hP⟩
  | cons d ds ih =>
    rw [List.foldl_cons]
    rcases tryMove_cases w cost s d with ⟨heq, -⟩ | ⟨u, e, hm, hlt, heq⟩
    · rw [heq]
      exact ih hs hw hP
    · rw [heq]
      refine ih (hs.discover hw hf hm hlt) ?_ (step s d u e hs hw hP hm hlt)
      have huw : u ≠ w := by
        rintro rfl
        rw [scoreOf_of_score hw] at hlt
        omega
      rw [score_discover, if_neg huw, hw]

/-- The worlds behind a world whose moves were tried have scores. -/
theorem scoreOf_foldl_tryMove_le (hf : w.finished = false) {ds : List Direction}
    (hs : Sound w₀ s) (hw : s.score[w]? = some cost) (hd : d ∈ ds)
    (hm : w.move d = (u, .moved e)) : (ds.foldl (tryMove w cost) s).scoreOf u ≤ cost + 1 := by
  induction ds generalizing s with
  | nil => cases hd
  | cons c ds ih =>
    rw [List.foldl_cons]
    obtain ⟨hs', hw', -⟩ := foldl_tryMove (P := fun _ => True) hf
      (fun _ _ _ _ _ _ _ _ _ => trivial) [c] hs hw trivial
    rcases List.mem_cons.mp hd with rfl | hd
    · have hnow : (tryMove w cost s d).scoreOf u ≤ cost + 1 := by
        rcases tryMove_cases w cost s d with ⟨heq, hle⟩ | ⟨u', e', hm', -, heq⟩
        · rw [heq]
          exact hle u e hm
        · rw [hm] at hm'
          cases hm'
          rw [heq, scoreOf_discover, if_pos rfl]
      exact (foldl_tryMove (P := fun s => s.scoreOf u ≤ cost + 1) hf
        (fun s _ _ _ _ _ hle _ hlt => (scoreOf_discover_le hlt u).trans hle) ds hs' hw' hnow).2.2
    · exact ih hs' hw' hd

/-! ### One round -/

/-- Taking the first entry off the frontier leaves what is noted true. -/
theorem Sound.of_pop (h : Sound w₀ s) {f : Entry} {rest : Frontier}
    (hp : s.frontier.pop = some (f, rest)) (k : Nat) :
    Sound w₀ { s with frontier := rest, expanded := k } where
  ordered := Frontier.ordered_of_pop h.ordered hp
  score_start := h.score_start
  origin_start := h.origin_start
  score_lt := h.score_lt
  entry := fun e he => h.entry e ((Frontier.mem_of_pop hp).mpr (Or.inr he))
  come_upon := h.come_upon
  origin := h.origin

/-- Only the world of the entry that is taken off has to be let off, and not even
that one if the entry is out of date. -/
theorem Covered.of_pop (h : Covered X s) {f : Entry} {rest : Frontier}
    (hp : s.frontier.pop = some (f, rest)) (k : Nat)
    (hX : f.cost = s.scoreOf f.world → f.world ∈ X) :
    Covered X { s with frontier := rest, expanded := k } := by
  intro v n hv
  have hvs : s.score[v]? = some n := hv
  rcases h v n hvs with hvX | ⟨x, hmem, hx, hn⟩ | hclosed
  · exact Or.inl hvX
  · rcases (Frontier.mem_of_pop hp).mp hmem with rfl | hmem
    · -- the entry taken off is the one for `v`, and not out of date
      refine Or.inl (hx ▸ hX ?_)
      rw [hn, hx, scoreOf_of_score hvs]
    · exact Or.inr (Or.inl ⟨x, hmem, hx, hn⟩)
  · exact Or.inr (Or.inr hclosed)

/-- **To go on from a world keeps both promises**, and the world is done with. -/
theorem goOn_spec (hs : Sound w₀ s) (hc : Covered ∅ s) {f : Entry} {rest : Frontier}
    (hp : s.frontier.pop = some (f, rest)) (hcost : f.cost = s.scoreOf f.world)
    (hf : f.world.finished = false) :
    Sound w₀ (({ s with frontier := rest } : Search).goOn f.world f.cost) ∧
      Covered ∅ (({ s with frontier := rest } : Search).goOn f.world f.cost) := by
  have hmem : f ∈ s.frontier.toList := (Frontier.mem_of_pop hp).mpr (Or.inl rfl)
  have hw : s.score[f.world]? = some f.cost := hs.score_of_mem hmem hcost
  have hs₁ := hs.of_pop hp (s.expanded + 1)
  have hc₁ : Covered {f.world} { s with frontier := rest, expanded := s.expanded + 1 } :=
    Covered.of_pop (fun v n hv => (hc v n hv).imp_left False.elim) hp _ fun _ => rfl
  obtain ⟨hs₂, hw₂, hc₂⟩ := foldl_tryMove (P := Covered {f.world}) hf
    (fun _ _ _ _ _ _ hc _ hlt => hc.discover hlt) Direction.all hs₁ hw hc₁
  refine ⟨hs₂, fun v n hv => Or.inr ?_⟩
  rcases hc₂ v n hv with hv' | hdone
  · -- the world gone on from has had all its moves tried
    obtain rfl : v = f.world := hv'
    obtain rfl : f.cost = n := Option.some.inj (hw₂.symm.trans hv)
    exact Or.inr ⟨hf, fun d u e hm =>
      scoreOf_foldl_tryMove_le hf hs₁ hw (Direction.mem_all d) hm⟩
  · exact hdone

theorem round_spec (hs : Sound w₀ s) (hc : Covered ∅ s) (h : s.round budget = .goesOn s') :
    Sound w₀ s' ∧ Covered ∅ s' := by
  obtain ⟨f, rest, hp, ⟨hcost, -, rfl⟩ | ⟨hcost, -, hf, -, rfl⟩⟩ := round_goesOn_cases h
  · exact ⟨hs.of_pop hp _, hc.of_pop hp _ fun h => absurd h hcost⟩
  · exact goOn_spec hs hc hp hcost hf

/-- **At every round what is noted is true, and nothing is forgotten.** -/
theorem Rounds.spec {ws : List World} (h : Rounds budget (start w₀) ws s) :
    Sound w₀ s ∧ Covered ∅ s := by
  induction h with
  | none => exact ⟨sound_start w₀, covered_start w₀⟩
  | next _ hr ih => exact round_spec ih.1 ih.2 hr

/-! ### The way back to the start -/

/-- **The way back**: the origins are followed back from a world as far as they
go, to a world that has none. The steps are those of the way there. -/
inductive GoesBack (origin : Std.HashMap World (World × Step)) : World → World → List Step → Prop
  /-- The world has no origin. -/
  | stop {v : World} : origin[v]? = none → GoesBack origin v v []
  /-- One step back, and from there on. -/
  | back {v u first : World} {st : Step} {way : List Step} : origin[v]? = some (u, st) →
      GoesBack origin u first way → GoesBack origin v first (way ++ [st])

/-- Where enough moves may be followed back, all of the way is. -/
theorem GoesBack.trail_eq {origin : Std.HashMap World (World × Step)} {way : List Step}
    (h : GoesBack origin v u way) (hn : way.length ≤ n) (later : List Step) :
    Search.trail origin n v later = way ++ later := by
  induction h generalizing n later with
  | stop ho =>
    cases n with
    | zero => rfl
    | succ n => rw [Search.trail, ho, List.nil_append]
  | back ho _ ih =>
    rw [List.length_append, List.length_singleton] at hn
    obtain ⟨k, rfl⟩ := Nat.exists_eq_add_of_le' (show 1 ≤ n by omega)
    rw [Search.trail, ho, List.append_assoc]
    exact ih (by omega) _

/-- **The origins of a world lead back to the start**, in at most as many moves as
its score: the score drops with each step back. -/
theorem Sound.goesBack (h : Sound w₀ s) (hv : s.score[v]? = some n) :
    ∃ way, GoesBack s.origin v w₀ way ∧ Leads w₀ way v ∧ way.length ≤ n := by
  induction n using Nat.strong_induction_on generalizing v with
  | _ n ih =>
    rcases h.come_upon v n hv with rfl | ⟨⟨u, st⟩, ho⟩
    · exact ⟨[], .stop h.origin_start, rfl, Nat.zero_le _⟩
    · obtain ⟨m, n', hm, hn, hle, -, ⟨e, hmove⟩, hst⟩ := h.origin v u st ho
      obtain rfl : n = n' := Option.some.inj (hv.symm.trans hn)
      obtain ⟨way, hback, hleads, hlen⟩ := ih m hle hm
      refine ⟨way ++ [st], .back ho hback, hleads.concat hmove hst, ?_⟩
      rw [List.length_append, List.length_singleton]
      omega

/-- The moves that are followed back from a world lead there from the start. -/
theorem Sound.trail (h : Sound w₀ s) (hv : s.score[v]? = some m) (hmn : m ≤ n)
    (later : List Step) : ∃ way, Search.trail s.origin n v later = way ++ later ∧
      Leads w₀ way v ∧ way.length ≤ m := by
  obtain ⟨way, hback, hleads, hlen⟩ := h.goesBack hv
  exact ⟨way, hback.trail_eq (hlen.trans hmn) later, hleads, hlen⟩

/-! ### No list of moves gets past the frontier -/

/-- **Any list of moves is no shorter than the score of the world it leads to, or
an entry of the frontier promises a way that is as short.** -/
theorem score_le_or_entry (hs : Sound w₀ s) (hc : Covered ∅ s) (ds : List Direction) :
    s.scoreOf (w₀.moves ds) ≤ ds.length ∨ ∃ f ∈ s.frontier.toList, f.estimate ≤
      ds.length + (w₀.moves ds).flagDistance (w₀.moves ds).robot := by
  induction ds using List.reverseRecOn with
  | nil => exact Or.inl (scoreOf_of_score hs.score_start).le
  | append_singleton ds d ih =>
    rw [World.moves_concat, List.length_append, List.length_singleton]
    have hnear := (w₀.moves ds).flagDistance_le_move d
    rcases ih with hle | ⟨f, hmem, hf⟩
    · by_cases hun : s.scoreOf (w₀.moves ds) < unreached
      · have hv := score_of_scoreOf_lt hun
        rcases hc _ _ hv with hno | ⟨f, hmem, hw, hcost⟩ | ⟨-, hnext⟩
        · exact absurd hno (Set.notMem_empty _)
        · -- the world before the last move is to be gone on from
          refine Or.inr ⟨f, hmem, ?_⟩
          obtain ⟨hest, -⟩ := hs.entry f hmem
          rw [hest, hw, hcost]
          omega
        · -- it was gone on from, so the world behind it has a score
          left
          rcases hm : (w₀.moves ds).move d with ⟨u, o⟩
          cases o with
          | blocked =>
            rw [World.eq_of_move_blocked hm]
            exact hle.trans (Nat.le_succ _)
          | moved e => exact (hnext d u e hm).trans (by omega)
      · -- the list is as long as the score that stands for none
        have hle' := hs.scoreOf_le ((w₀.moves ds).move d).1
        exact Or.inl (by omega)
    · exact Or.inr ⟨f, hmem, by omega⟩

/-- The world of the first entry has no shorter list of moves, if the entry is not
out of date. -/
theorem cost_le_of_moves_eq (hs : Sound w₀ s) (hc : Covered ∅ s) {f : Entry} {rest : Frontier}
    (hp : s.frontier.pop = some (f, rest)) (hcost : f.cost = s.scoreOf f.world)
    {ds : List Direction} (hds : w₀.moves ds = f.world) : f.cost ≤ ds.length := by
  have hmem : f ∈ s.frontier.toList := (Frontier.mem_of_pop hp).mpr (Or.inl rfl)
  rcases score_le_or_entry hs hc ds with hle | ⟨x, hx, hest⟩
  · rw [hds] at hle
    omega
  · have hmin := Frontier.estimate_le_of_pop hs.ordered hp hx
    obtain ⟨hf, -⟩ := hs.entry f hmem
    rw [hds] at hest
    omega

end Search

end Route

end ScriptedMaze
