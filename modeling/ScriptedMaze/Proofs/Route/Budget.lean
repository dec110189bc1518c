import Mathlib.Data.Set.Card
import ScriptedMaze.Proofs.Route.Shortest

/-!
# How far a budget goes

The worlds that matter to a search are the unfinished ones that moves lead to
from its start, through unfinished worlds only (`World.ahead`). They are finitely
many, because the grid keeps its size and the robot stays in it
(`World.finite_ahead`), and if some moves finish the start, then some do that are
no more than these worlds (`World.exists_moves_le_ncard`): a shortest list comes
to no world twice.

A search goes on from each of them at most once. The distance to the nearest flag
drops by at most one with a move, so that the score of a world is final when its
entry comes first; no later move can lower it, and no other entry with that score
was made. The ledger of the worlds gone on from (`Search.Ledger`) keeps this from
round to round. So a search that may go on from one world more than its budget
gives up only when there are more worlds than that
(`World.route?_eq_none_iff`).

A larger budget changes nothing else. A round looks at the budget last, when it is
known that there is a world to go on from, and so a round that does not give up is
the same with every larger budget (`Search.round_of_le`). Two searches with
different budgets go through the same rounds up to the one at which the smaller
budget is used up (`World.route?_of_le_budget`).
-/

namespace ScriptedMaze

namespace World

variable {w u v : World}

/-! ### The unfinished worlds that moves lead to -/

/-- A move from an unfinished world to an unfinished world. -/
def Onward (u v : World) : Prop :=
  u.finished = false ∧ v.finished = false ∧ ∃ d, (u.move d).1 = v

/-- **The unfinished worlds that moves lead to**, through unfinished worlds only. -/
def ahead (w : World) : Set World := {v | Relation.ReflTransGen Onward w v}

theorem mem_ahead_self (w : World) : w ∈ w.ahead := Relation.ReflTransGen.refl

theorem exists_moves_of_mem_ahead (h : v ∈ w.ahead) : ∃ ds, w.moves ds = v := by
  induction h with
  | refl => exact ⟨[], rfl⟩
  | tail _ hstep ih =>
    obtain ⟨ds, rfl⟩ := ih
    obtain ⟨-, -, d, rfl⟩ := hstep
    exact ⟨ds ++ [d], moves_concat _ _ _⟩

/-- Moves that lead to an unfinished world lead through unfinished worlds. -/
theorem moves_mem_ahead {ds : List Direction} (h : (w.moves ds).finished = false) :
    w.moves ds ∈ w.ahead := by
  induction ds using List.reverseRecOn with
  | nil => exact mem_ahead_self w
  | append_singleton ds d ih =>
    have hbefore : (w.moves ds).finished = false := by
      by_contra hfin
      have hstay := finished_moves (Bool.not_eq_false _ ▸ hfin) [d]
      rw [← moves_append] at hstay
      exact Bool.false_ne_true (h.symm.trans hstay)
    refine Relation.ReflTransGen.tail (ih hbefore) ⟨hbefore, h, d, ?_⟩
    rw [moves_concat]

theorem size_moves (w : World) (ds : List Direction) :
    (w.moves ds).grid.width = w.grid.width ∧ (w.moves ds).grid.height = w.grid.height := by
  induction ds generalizing w with
  | nil => exact ⟨rfl, rfl⟩
  | cons d ds ih =>
    obtain ⟨hw, hh⟩ := ih (w.move d).1
    obtain ⟨hw', hh'⟩ := size_move w d
    exact ⟨hw.trans hw', hh.trans hh'⟩

/-- However it moves, the robot is where it started or in the grid. -/
theorem robot_moves (w : World) (ds : List Direction) :
    (w.moves ds).robot = w.robot ∨ w.grid.contains (w.moves ds).robot = true := by
  induction ds using List.reverseRecOn with
  | nil => exact Or.inl rfl
  | append_singleton ds d ih =>
    rw [moves_concat]
    rcases robot_move (w.moves ds) d with ⟨hr, hin⟩ | hr
    · obtain ⟨hw, hh⟩ := size_moves w ds
      rw [Grid.contains_congr hw hh] at hin
      rw [hr]
      exact Or.inr hin
    · rw [hr]
      exact ih

/-- **Moves lead to finitely many worlds.** -/
theorem finite_ahead (w : World) : w.ahead.Finite := by
  have hparts : Function.Injective fun v : World => (v.grid, v.robot, v.hasKey, v.finished) := by
    rintro ⟨g, r, k, f⟩ ⟨g', r', k', f'⟩ h
    cases h
    rfl
  refine (((Grid.finite_sameSize w.grid.width w.grid.height).prod
    (((Set.finite_singleton w.robot).union w.grid.finite_contains).prod
      (Set.finite_univ (α := Bool × Bool)))).preimage hparts.injOn).subset ?_
  intro v hv
  obtain ⟨ds, rfl⟩ := exists_moves_of_mem_ahead hv
  exact ⟨size_moves w ds, robot_moves w ds, trivial⟩

/-- **If moves finish a world, then some do that are no more than the unfinished
worlds that moves lead to.** -/
theorem exists_moves_le_ncard (h : ∃ ds, (w.moves ds).finished = true) :
    ∃ ds, (w.moves ds).finished = true ∧ ds.length ≤ w.ahead.ncard := by
  classical
  obtain ⟨ds, hds, hmin⟩ : ∃ ds, (w.moves ds).finished = true ∧
      ∀ es, (w.moves es).finished = true → ds.length ≤ es.length := by
    have hlen : ∃ n, ∃ ds : List Direction, ds.length = n ∧ (w.moves ds).finished = true := by
      obtain ⟨ds, hds⟩ := h
      exact ⟨_, ds, rfl, hds⟩
    obtain ⟨ds, hlends, hds⟩ := Nat.find_spec hlen
    exact ⟨ds, hds, fun es hes => hlends ▸ Nat.find_min' hlen ⟨es, rfl, hes⟩⟩
  refine ⟨ds, hds, ?_⟩
  -- the worlds before the last move are unfinished, and no two of them are the same
  have hopen : ∀ i < ds.length, w.moves (ds.take i) ∈ w.ahead := by
    intro i hi
    refine moves_mem_ahead (Bool.eq_false_iff.mpr fun hfin => ?_)
    have hle := hmin _ hfin
    rw [List.length_take] at hle
    omega
  have hne : ∀ i j, i < j → j < ds.length → w.moves (ds.take i) ≠ w.moves (ds.take j) := by
    intro i j hij hj heq
    have hcut : (w.moves (ds.take i ++ ds.drop j)).finished = true := by
      rw [moves_append, heq, ← moves_append, List.take_append_drop]
      exact hds
    have hle := hmin _ hcut
    rw [List.length_append, List.length_take, List.length_drop] at hle
    omega
  have hinj : Set.InjOn (fun i => w.moves (ds.take i)) ↑(Finset.range ds.length) := by
    intro i hi j hj heq
    rw [Finset.mem_coe, Finset.mem_range] at hi hj
    rcases lt_trichotomy i j with hij | hij | hij
    · exact absurd heq (hne i j hij hj)
    · exact hij
    · exact absurd heq.symm (hne j i hij hi)
  calc ds.length = (Finset.range ds.length).card := (Finset.card_range _).symm
    _ ≤ w.finite_ahead.toFinset.card :=
      Finset.card_le_card_of_injOn _
        (fun i hi => w.finite_ahead.mem_toFinset.mpr (hopen i (Finset.mem_range.mp hi))) hinj
    _ = w.ahead.ncard := (Set.ncard_eq_toFinset_card _ _).symm

end World

namespace Route

namespace Search

variable {w₀ u v w : World} {s s' : Search} {budget : Int} {d : Direction} {e : Effect}
  {n cost : Nat} {ws : List World}

/-! ### The ledger of the worlds gone on from -/

/-- **A world that is settled**: no moves that lead to it are fewer than its score,
and no entry of the frontier will have it gone on from. -/
def Settled (w₀ : World) (s : Search) (v : World) : Prop :=
  ∃ n, s.score[v]? = some n ∧ (∀ ds, w₀.moves ds = v → n ≤ ds.length) ∧ ¬s.Open v n

/-- **The ledger of a search**: the worlds gone on from are settled, and no two
entries of the frontier are for one world with one score. -/
structure Ledger (w₀ : World) (ws : List World) (s : Search) : Prop where
  settled : ∀ v ∈ ws, Settled w₀ s v
  entries_nodup : (s.frontier.toList.map fun f => (f.world, f.cost)).Nodup

theorem ledger_start (w₀ : World) : Ledger w₀ [] (start w₀) where
  settled := fun v hv => absurd hv List.not_mem_nil
  entries_nodup := by
    have hperm := Frontier.toList_push .empty ⟨w₀.flagDistance w₀.robot, 0, 0, w₀⟩
    refine ((hperm.map _).nodup_iff).mpr ?_
    simp [Frontier.toList]

/-- Some moves, no more than its score, lead to every world with a score. -/
theorem Sound.exists_moves (h : Sound w₀ s) (hv : s.score[v]? = some n) :
    ∃ ds, w₀.moves ds = v ∧ ds.length ≤ n := by
  obtain ⟨way, -, hleads, hlen⟩ := h.trail hv le_rfl []
  exact ⟨_, hleads.moves_eq, by rwa [List.length_map]⟩

/-- A settled world is not come upon again. -/
theorem Settled.not_discovered (hv : Settled w₀ s v) (hs : Sound w₀ s)
    (hw : s.score[w]? = some cost) (hm : w.move d = (u, .moved e))
    (hlt : cost + 1 < s.scoreOf u) : u ≠ v := by
  rintro rfl
  obtain ⟨n, hn, hmin, -⟩ := hv
  obtain ⟨ds, rfl, hlen⟩ := hs.exists_moves hw
  have hle := hmin (ds ++ [d]) (by rw [World.moves_concat, hm])
  rw [scoreOf_of_score hn] at hlt
  rw [List.length_append, List.length_singleton] at hle
  omega

/-- To come upon a world keeps the ledger. -/
theorem Ledger.discover (h : Ledger w₀ ws s) (hs : Sound w₀ s) (hw : s.score[w]? = some cost)
    (hm : w.move d = (u, .moved e)) (hlt : cost + 1 < s.scoreOf u) :
    Ledger w₀ ws (s.discover w d u (cost + 1)) where
  settled := by
    intro v hv
    have huv := (h.settled v hv).not_discovered hs hw hm hlt
    obtain ⟨n, hn, hmin, hopen⟩ := h.settled v hv
    refine ⟨n, by rw [score_discover, if_neg huv, hn], hmin, ?_⟩
    rintro ⟨f, hmem, hf, hcost⟩
    rcases mem_frontier_discover.mp hmem with rfl | hmem
    · exact huv hf
    · exact hopen ⟨f, hmem, hf, hcost⟩
  entries_nodup := by
    have hperm := Frontier.toList_push s.frontier
      ⟨cost + 1 + u.flagDistance u.robot, cost + 1, s.entries, u⟩
    refine ((hperm.map _).nodup_iff).mpr (List.nodup_cons.mpr ⟨fun hmem => ?_, h.entries_nodup⟩)
    obtain ⟨f, hf, heq⟩ := List.mem_map.mp hmem
    have hfw : f.world = u := congrArg Prod.fst heq
    have hfc : f.cost = cost + 1 := congrArg Prod.snd heq
    obtain ⟨-, n, hn, hle⟩ := hs.entry f hf
    rw [← hfw, scoreOf_of_score hn] at hlt
    omega

/-- The first entry, if it is not out of date, is for a world that was not gone on
from. -/
theorem Ledger.not_mem (h : Ledger w₀ ws s) {f : Entry} {rest : Frontier}
    (hp : s.frontier.pop = some (f, rest)) (hcost : f.cost = s.scoreOf f.world) :
    f.world ∉ ws := by
  intro hmem
  obtain ⟨n, hn, -, hopen⟩ := h.settled _ hmem
  rw [scoreOf_of_score hn] at hcost
  exact hopen ⟨f, (Frontier.mem_of_pop hp).mpr (Or.inl rfl), rfl, hcost⟩

theorem Ledger.of_pop (h : Ledger w₀ ws s) {f : Entry} {rest : Frontier}
    (hp : s.frontier.pop = some (f, rest)) (k : Nat) :
    Ledger w₀ ws { s with frontier := rest, expanded := k } where
  settled := by
    intro v hv
    obtain ⟨n, hn, hmin, hopen⟩ := h.settled v hv
    refine ⟨n, hn, hmin, ?_⟩
    rintro ⟨x, hmem, hx⟩
    exact hopen ⟨x, (Frontier.mem_of_pop hp).mpr (Or.inr hmem), hx⟩
  entries_nodup :=
    (List.nodup_cons.mp ((((Frontier.toList_of_pop hp).map _).nodup_iff).mp h.entries_nodup)).2

/-- **The world of the first entry is settled once the entry is taken off**, if it
is not out of date. -/
theorem settled_of_pop (h : Ledger w₀ ws s) (hs : Sound w₀ s) (hc : Covered ∅ s) {f : Entry}
    {rest : Frontier} (hp : s.frontier.pop = some (f, rest))
    (hcost : f.cost = s.scoreOf f.world) (k : Nat) :
    Settled w₀ { s with frontier := rest, expanded := k } f.world := by
  have hmem : f ∈ s.frontier.toList := (Frontier.mem_of_pop hp).mpr (Or.inl rfl)
  refine ⟨f.cost, hs.score_of_mem hmem hcost,
    fun ds hds => cost_le_of_moves_eq hs hc hp hcost hds, ?_⟩
  rintro ⟨x, hx, hxw, hxc⟩
  have hnodup := (((Frontier.toList_of_pop hp).map
    fun f : Entry => (f.world, f.cost)).nodup_iff).mp h.entries_nodup
  rw [List.map_cons] at hnodup
  exact (List.nodup_cons.mp hnodup).1 (List.mem_map.mpr ⟨x, hx, by rw [hxw, hxc]⟩)

/-- **A round enters the world it goes on from into the ledger.** -/
theorem Ledger.of_round (h : Ledger w₀ ws s) (hs : Sound w₀ s) (hc : Covered ∅ s)
    (hr : s.round budget = .goesOn s') : Ledger w₀ (ws ++ s.worldsGoneOnFrom) s' := by
  obtain ⟨f, rest, hp, ⟨-, hnone, rfl⟩ | ⟨hcost, hone, hf, -, rfl⟩⟩ := round_goesOn_cases hr
  · rw [hnone, List.append_nil]
    exact h.of_pop hp _
  · rw [hone]
    have hmem : f ∈ s.frontier.toList := (Frontier.mem_of_pop hp).mpr (Or.inl rfl)
    have hpop := h.of_pop hp (s.expanded + 1)
    have hledger : Ledger w₀ (ws ++ [f.world])
        { s with frontier := rest, expanded := s.expanded + 1 } := by
      refine ⟨fun v hv => ?_, hpop.entries_nodup⟩
      rcases List.mem_append.mp hv with hv | hv
      · exact hpop.settled v hv
      · obtain rfl := List.mem_singleton.mp hv
        exact settled_of_pop h hs hc hp hcost _
    exact (foldl_tryMove (P := Ledger w₀ (ws ++ [f.world])) hf
      (fun _ _ _ _ hs hw hl hm hlt => hl.discover hs hw hm hlt) Direction.all
      (hs.of_pop hp _) (hs.score_of_mem hmem hcost) hledger).2.2

/-- **No world is gone on from twice**, and every one is an unfinished world that
moves lead to; the search counts them. -/
theorem Rounds.gone_on_from (hr : Rounds budget (start w₀) ws s) :
    Ledger w₀ ws s ∧ ws.Nodup ∧ (∀ v ∈ ws, v ∈ w₀.ahead) ∧ s.expanded = ws.length := by
  induction hr with
  | none =>
    exact ⟨ledger_start w₀, List.nodup_nil, fun v hv => absurd hv List.not_mem_nil, rfl⟩
  | @next ws s₁ s₂ hrounds hr ih =>
    obtain ⟨hledger, hnodup, hahead, hcount⟩ := ih
    obtain ⟨hs, hc⟩ := hrounds.spec
    refine ⟨hledger.of_round hs hc hr, ?_⟩
    obtain ⟨f, rest, hp, ⟨-, hnone, rfl⟩ | ⟨hcost, hone, hf, -, rfl⟩⟩ := round_goesOn_cases hr
    · rw [hnone, List.append_nil]
      exact ⟨hnodup, hahead, hcount⟩
    · rw [hone]
      have hmem : f ∈ s₁.frontier.toList := (Frontier.mem_of_pop hp).mpr (Or.inl rfl)
      refine ⟨?_, ?_, ?_⟩
      · refine List.nodup_append.mpr ⟨hnodup, List.nodup_singleton _, ?_⟩
        rintro v hv x hx rfl
        exact hledger.not_mem hp hcost (List.mem_singleton.mp hx ▸ hv)
      · intro v hv
        rcases List.mem_append.mp hv with hv | hv
        · exact hahead v hv
        · obtain rfl := List.mem_singleton.mp hv
          obtain ⟨ds, hds, -⟩ := hs.exists_moves (hs.score_of_mem hmem hcost)
          rw [← hds]
          exact World.moves_mem_ahead (hds ▸ hf)
      · rw [expanded_goOn, List.length_append, List.length_singleton, hcount]

/-! ### When a search finds nothing -/

/-- A search that has nothing left would have come upon a finished world. -/
theorem not_finishes_of_pop_eq_none (hs : Sound w₀ s) (hc : Covered ∅ s)
    (hp : s.frontier.pop = none) (hR : w₀.ahead.ncard < unreached) (ds : List Direction) :
    (w₀.moves ds).finished = false := by
  by_contra hfin
  obtain ⟨es, hes, hlen⟩ := World.exists_moves_le_ncard ⟨ds, Bool.not_eq_false _ ▸ hfin⟩
  have hempty := Frontier.toList_of_pop_eq_none hp
  rcases score_le_or_entry hs hc es with hle | ⟨f, hf, -⟩
  · have hscore := score_of_scoreOf_lt (hle.trans_lt (hlen.trans_lt hR))
    rcases hc _ _ hscore with hno | ⟨f, hf, -⟩ | ⟨hopen, -⟩
    · exact absurd hno (Set.notMem_empty _)
    · rw [hempty] at hf
      cases hf
    · exact Bool.false_ne_true (hopen.symm.trans hes)
  · rw [hempty] at hf
    cases hf

/-- **A search gives up only when more worlds lie ahead than it may go on from.** -/
theorem budget_lt_of_gaveUp (hr : Rounds budget (start w₀) ws s) {f : Entry} {rest : Frontier}
    (hp : s.frontier.pop = some (f, rest)) (hcost : f.cost = s.scoreOf f.world)
    (hf : f.world.finished = false) (hb : budget < s.expanded) :
    budget + 1 < w₀.ahead.ncard := by
  obtain ⟨hs, -⟩ := hr.spec
  obtain ⟨hledger, hnodup, hahead, hcount⟩ := hr.gone_on_from
  have hmem : f ∈ s.frontier.toList := (Frontier.mem_of_pop hp).mpr (Or.inl rfl)
  obtain ⟨ds, hds, -⟩ := hs.exists_moves (hs.score_of_mem hmem hcost)
  have hnew : f.world ∈ w₀.ahead := hds ▸ World.moves_mem_ahead (hds ▸ hf)
  -- the worlds gone on from and this one are all different, and all lie ahead
  have hcons : (f.world :: ws).Nodup := List.nodup_cons.mpr ⟨hledger.not_mem hp hcost, hnodup⟩
  have hcard : (f.world :: ws).length ≤ w₀.ahead.ncard := by
    rw [← List.toFinset_card_of_nodup hcons, Set.ncard_eq_toFinset_card _ w₀.finite_ahead]
    refine Finset.card_le_card fun v hv => w₀.finite_ahead.mem_toFinset.mpr ?_
    rcases List.mem_cons.mp (List.mem_toFinset.mp hv) with rfl | hv
    · exact hnew
    · exact hahead v hv
  rw [List.length_cons] at hcard
  omega

/-! ### Two budgets -/

variable {s₀ : Search} {budget' : Int}

/-- **A round that does not give up is the same with a larger budget.** -/
theorem round_of_le {r : Round} (h : budget ≤ budget') (hr : s.round budget = r)
    (hup : r ≠ .gaveUp) : s.round budget' = r := by
  subst hr
  cases hp : s.frontier.pop with
  | none => simp only [round, hp]
  | some top =>
    obtain ⟨e, rest⟩ := top
    simp only [round, hp] at hup ⊢
    by_cases hcost : e.cost ≠ s.scoreOf e.world
    · rw [if_pos hcost, if_pos hcost]
    rw [if_neg hcost] at hup
    rw [if_neg hcost, if_neg hcost]
    by_cases hf : e.world.finished = true
    · rw [if_pos hf, if_pos hf]
    rw [if_neg hf] at hup
    rw [if_neg hf, if_neg hf]
    -- the budget is looked at last
    by_cases hb : budget < s.expanded
    · exact absurd (if_pos hb) hup
    · rw [if_neg hb, if_neg (by omega)]

/-- Rounds that a budget allows are allowed by a larger one, and lead to the same. -/
theorem Rounds.of_le (h : budget ≤ budget') (hr : Rounds budget s₀ ws s) :
    Rounds budget' s₀ ws s := by
  induction hr with
  | none => exact .none
  | next _ hround ih => exact ih.next (round_of_le h hround (by simp))

/-- A run is its first round, and the run from there. -/
theorem run_eq (budget : Int) (s : Search) :
    s.run budget = match s.round budget with
      | .exhausted => none
      | .found way => some way
      | .gaveUp => none
      | .goesOn s' => s'.run budget := by
  rw [run]
  split <;> rename_i hr <;> rw [hr]

/-- **A run comes to the same with a larger budget**, unless after some rounds it gives
up. -/
theorem run_of_le (h : budget ≤ budget') (hr : Rounds budget s₀ ws s) :
    s.run budget = s.run budget' ∨
      s.run budget = none ∧ ∃ ws s, Rounds budget s₀ ws s ∧ s.round budget = .gaveUp := by
  fun_induction run budget s generalizing ws with
  | case1 s hround =>
    rw [run_eq budget' s, round_of_le h hround (by simp)]
    exact Or.inl rfl
  | case2 s way hround =>
    rw [run_eq budget' s, round_of_le h hround (by simp)]
    exact Or.inl rfl
  | case3 s hround => exact Or.inr ⟨rfl, ws, s, hr, hround⟩
  | case4 s s₁ hround ih =>
    rw [run_eq budget' s, round_of_le h hround (by simp)]
    exact ih (hr.next hround)

end Search

end Route

namespace World

open Route

/-- Six worlds lie ahead in the corridor with the door: those before the key is
taken, before the door is opened, and after. -/
theorem ncard_ahead_locked_le : locked.opening.ahead.ncard ≤ 6 := by
  let listed : List World := [[], [.left], [.left, .right], [.left, .right, .right],
    [.left, .right, .right, .left], [.left, .right, .right, .left, .left]].map locked.opening.moves
  have hclosed : ∀ u ∈ listed, ∀ d ∈ Direction.all,
      (u.move d).1.finished = true ∨ (u.move d).1 ∈ listed := by decide
  have hsub : locked.opening.ahead ⊆ ↑listed.toFinset := by
    intro v hv
    rw [List.coe_toFinset]
    induction hv with
    | refl => decide
    | tail _ hstep ih =>
      obtain ⟨-, hv, d, rfl⟩ := hstep
      rcases hclosed _ ih d (Direction.mem_all d) with hfin | hmem
      · exact absurd (hv.symm.trans hfin) Bool.false_ne_true
      · exact hmem
  calc locked.opening.ahead.ncard ≤ (↑listed.toFinset : Set World).ncard :=
        Set.ncard_le_ncard hsub (Finset.finite_toSet _)
    _ = listed.toFinset.card := Set.ncard_coe_finset _
    _ ≤ 6 := listed.toFinset_card_le

/-- **With a budget for all worlds that lie ahead, a way is found if there is one.** -/
theorem never_finished_iff {w : World} (hw : w.finished = false) (budget : Int)
    (hR : w.ahead.ncard < 1000000000) (hb : (w.ahead.ncard : Int) ≤ budget + 1) :
    (∀ ds, (w.moves ds).finished = false) ↔ w.route? budget = none := by
  obtain ⟨ws, s, hrounds, hend⟩ := Search.exists_rounds_ends
    (.none : Search.Rounds budget (Search.start w) [] (Search.start w))
  obtain ⟨hs, hc⟩ := hrounds.spec
  rw [route?, hw, if_neg Bool.false_ne_true]
  constructor
  · intro hnever
    cases hway : (Search.start w).run budget with
    | none => rfl
    | some way =>
      rw [hway] at hend
      have hfin := (Search.isShortest_of_ends hw hrounds hend).finishes
      exact absurd (hnever _ ▸ hfin) Bool.false_ne_true
  · intro hnone
    rw [hnone] at hend
    cases hend with
    | exhausted hp => exact Search.not_finishes_of_pop_eq_none hs hc hp hR
    | gaveUp hp hcost hf hspent =>
      have hlt := Search.budget_lt_of_gaveUp hrounds hp hcost hf hspent
      omega

/-- **With a budget for all worlds that lie ahead, nothing is found exactly when no
moves finish the world**; and a search goes on from no world twice, so that its
budget counts worlds. -/
theorem route?_eq_none_iff {w : World} (hw : w.finished = false) (budget : Int) :
    w.ahead.Finite ∧
      (w.ahead.ncard < 1000000000 → (w.ahead.ncard : Int) ≤ budget + 1 →
        (w.route? budget = none ↔ ∀ ds, (w.moves ds).finished = false)) ∧
      ∀ ws s, Search.Rounds budget (Search.start w) ws s →
        ws.Nodup ∧ (∀ v ∈ ws, v ∈ w.ahead) ∧ s.expanded = ws.length :=
  ⟨w.finite_ahead, fun hR hb => (never_finished_iff hw budget hR hb).symm,
    fun _ _ hr => hr.gone_on_from.2⟩

/-- A budget of five is enough for the six worlds of the corridor, of which the
first to go on from is the opening. -/
theorem route?_eq_none_iff_locked :
    locked.opening.finished = false ∧ locked.opening.ahead.ncard < 1000000000 ∧
      (locked.opening.ahead.ncard : Int) ≤ 5 + 1 ∧
      (locked.opening.route? 5 = none ↔ ∀ ds, (locked.opening.moves ds).finished = false) ∧
      ∃ s, Search.Rounds 5 (Search.start locked.opening) [locked.opening] s ∧ s.expanded = 1 := by
  have hle := ncard_ahead_locked_le
  obtain ⟨-, hiff, honce⟩ := route?_eq_none_iff (w := locked.opening) rfl 5
  have hround : (Search.start locked.opening).round 5 =
      .goesOn (({ Search.start locked.opening with frontier := .empty }).goOn locked.opening 0) := by
    cbv
  have hfirst : (Search.start locked.opening).worldsGoneOnFrom = [locked.opening] := by cbv
  have hnone : Search.Rounds 5 (Search.start locked.opening) [] (Search.start locked.opening) :=
    .none
  have hrounds := hnone.next hround
  rw [hfirst, List.nil_append] at hrounds
  exact ⟨rfl, by omega, by omega, hiff (by omega) (by omega), _, hrounds,
    (honce _ _ hrounds).2.2⟩

/-- **A budget decides when to give up, and nothing else.** A way that is found is found with
every larger budget, and it is the same way, step by step. Where a larger budget makes a
difference, both searches go through the same rounds, and then the smaller budget is used
up. -/
theorem route?_of_le_budget {budget budget' : Int} (h : budget ≤ budget') (w : World) :
    (w.route? budget = none ∨ w.route? budget = w.route? budget') ∧
      (∀ way, w.route? budget = some way → w.route? budget' = some way) ∧
      (w.route? budget ≠ w.route? budget' →
        ∃ ws s, Search.Rounds budget (Search.start w) ws s ∧
          Search.Rounds budget' (Search.start w) ws s ∧ s.round budget = .gaveUp) := by
  have hrun := Search.run_of_le h
    (.none : Search.Rounds budget (Search.start w) [] (Search.start w))
  cases hf : w.finished with
  | true => simp [route?, hf]
  | false =>
    simp only [route?, hf, Bool.false_eq_true, if_false]
    rcases hrun with heq | ⟨hnone, ws, s, hrounds, hup⟩
    · exact ⟨Or.inr heq, fun way hway => heq ▸ hway, fun hne => absurd heq hne⟩
    · refine ⟨Or.inl hnone, fun way hway => ?_, fun _ => ⟨ws, s, hrounds, hrounds.of_le h, hup⟩⟩
      cases hnone.symm.trans hway

/-- A budget of two is used up before the robot has come through the door, and with one of ten
the way is the one that is found with the usual budget. -/
theorem route?_of_le_budget_locked :
    ∃ way : List Step, locked.opening.route? 2 = none ∧ locked.opening.route? 10 = some way ∧
      locked.opening.route? = some way ∧
      ∃ ws s, Search.Rounds 2 (Search.start locked.opening) ws s ∧
        Search.Rounds 10 (Search.start locked.opening) ws s ∧ s.round 2 = .gaveUp := by
  have hfew : locked.opening.route? 2 = none := Search.run_eq_of_runWithin (n := 6) (by cbv)
  have hway : locked.opening.route? 10 =
      some [⟨.left, ⟨0, 0⟩⟩, ⟨.right, ⟨1, 0⟩⟩, ⟨.right, ⟨2, 0⟩⟩, ⟨.right, ⟨3, 0⟩⟩] :=
    Search.run_eq_of_runWithin (n := 6) (by cbv)
  refine ⟨_, hfew, hway, (route?_of_le_budget (by decide) locked.opening).2.1 _ hway, ?_⟩
  refine (route?_of_le_budget (by decide) locked.opening).2.2 ?_
  rw [hfew, hway]
  exact (Option.some_ne_none _).symm

end World

end ScriptedMaze
