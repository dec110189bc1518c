import Mathlib.Data.List.Chain
import ScriptedMaze.Route.Listing

/-!
# Runs and pieces

A **run** of a list of moves is a stretch of equal moves that goes on at neither end
(`Route.IsRun`). The stretches that a listing is made of are the runs
(`Route.mem_runs_iff`): no stretch is empty and stretches that follow each other are of
different moves (`Route.apart_runs`), and there is only one way to cut moves so
(`Route.runs_together`).

A script shows every run in **pieces**, one on each line (`Route.script_eq_listing`). Together
they are the moves (`Route.together_pieces`), no piece is longer than a loop may be
(`Route.le_of_mem_pieces`), and some piece is longer than a given length exactly if some run
is and a loop may be (`Route.exists_lt_pieces_iff`).
-/

namespace ScriptedMaze.Route

variable {ds : List Direction} {d : Direction} {n k size : Nat} {bound : Int}
  {ps : List (Direction × Nat)}

/-! ### Stretches -/

/-- The moves of stretches one after the other. -/
def together (ps : List (Direction × Nat)) : List Direction :=
  ps.flatMap fun p => List.replicate p.2 p.1

@[simp] theorem together_nil : together [] = [] := rfl

@[simp] theorem together_cons (p : Direction × Nat) (ps : List (Direction × Nat)) :
    together (p :: ps) = List.replicate p.2 p.1 ++ together ps := List.flatMap_cons

@[simp] theorem together_append (ps qs : List (Direction × Nat)) :
    together (ps ++ qs) = together ps ++ together qs := List.flatMap_append

theorem together_runs (ds : List Direction) : together (runs ds) = ds := flatMap_runs ds

/-- **Stretches that are as long as they can be**: none is empty, and those that follow each
other are of different moves. -/
structure Apart (ps : List (Direction × Nat)) : Prop where
  pos : ∀ p ∈ ps, 0 < p.2
  ne : ps.IsChain fun p q => p.1 ≠ q.1

theorem head?_together (h : ∀ p ∈ ps, 0 < p.2) :
    (together ps).head? = ps.head?.map Prod.fst := by
  cases ps with
  | nil => rfl
  | cons p ps =>
    have hp : 0 < p.2 := h p List.mem_cons_self
    simp [List.head?_append, List.head?_replicate, Nat.ne_of_gt hp]

theorem getLast?_together (h : ∀ p ∈ ps, 0 < p.2) :
    (together ps).getLast? = ps.getLast?.map Prod.fst := by
  rcases List.eq_nil_or_concat ps with rfl | ⟨qs, p, rfl⟩
  · rfl
  · have hp : 0 < p.2 := h p (by simp)
    simp [List.getLast?_append, List.getLast?_replicate, Nat.ne_of_gt hp]

theorem apart_cons :
    Apart ((d, n) :: ps) ↔ 0 < n ∧ (together ps).head? ≠ some d ∧ Apart ps := by
  constructor
  · rintro ⟨hpos, hne⟩
    obtain ⟨hn, hps⟩ := List.forall_mem_cons.mp hpos
    obtain ⟨hfirst, hne⟩ := List.isChain_cons.mp hne
    refine ⟨hn, fun hd => ?_, hps, hne⟩
    rw [head?_together hps] at hd
    obtain ⟨q, hq, rfl⟩ := Option.map_eq_some_iff.mp hd
    exact hfirst q hq rfl
  · rintro ⟨hn, hd, hps, hne⟩
    refine ⟨List.forall_mem_cons.mpr ⟨hn, hps⟩, List.isChain_cons.mpr ⟨fun q hq heq => hd ?_, hne⟩⟩
    rw [head?_together hps, Option.mem_def.mp hq]
    exact congrArg some heq.symm

theorem apart_append {qs : List (Direction × Nat)} :
    Apart (ps ++ (d, n) :: qs) ↔
      Apart ps ∧ (together ps).getLast? ≠ some d ∧ Apart ((d, n) :: qs) := by
  constructor
  · rintro ⟨hpos, hne⟩
    obtain ⟨hps, hqs⟩ := List.forall_mem_append.mp hpos
    obtain ⟨hne, hne', hborder⟩ := List.isChain_append.mp hne
    refine ⟨⟨hps, hne⟩, fun hd => ?_, hqs, hne'⟩
    rw [getLast?_together hps] at hd
    obtain ⟨p, hp, rfl⟩ := Option.map_eq_some_iff.mp hd
    exact hborder p hp _ rfl rfl
  · rintro ⟨⟨hps, hne⟩, hd, hqs, hne'⟩
    refine ⟨List.forall_mem_append.mpr ⟨hps, hqs⟩,
      List.isChain_append.mpr ⟨hne, hne', fun p hp q hq heq => hd ?_⟩⟩
    rw [getLast?_together hps, Option.mem_def.mp hp, Option.map_some, heq]
    cases hq
    rfl

/-- A move in front of others begins a stretch, or makes the first one longer. -/
theorem runs_cons (d : Direction) (ds : List Direction) :
    (∃ n rest, runs ds = (d, n) :: rest ∧ runs (d :: ds) = (d, n + 1) :: rest) ∨
      (runs ds).head?.map Prod.fst ≠ some d ∧ runs (d :: ds) = (d, 1) :: runs ds := by
  rw [runs]
  cases hruns : runs ds with
  | nil => exact Or.inr ⟨by simp, rfl⟩
  | cons p rest =>
    obtain ⟨e, n⟩ := p
    by_cases hd : d = e
    · subst hd
      exact Or.inl ⟨n, rest, rfl, if_pos rfl⟩
    · exact Or.inr ⟨by simpa using Ne.symm hd, if_neg hd⟩

theorem apart_runs (ds : List Direction) : Apart (runs ds) := by
  induction ds with
  | nil => exact ⟨by simp [runs], .nil⟩
  | cons d ds ih =>
    rcases runs_cons d ds with ⟨n, rest, hruns, heq⟩ | ⟨hne, heq⟩
    · rw [hruns] at ih
      rw [heq]
      obtain ⟨-, hd, hrest⟩ := apart_cons.mp ih
      exact apart_cons.mpr ⟨Nat.succ_pos n, hd, hrest⟩
    · rw [heq]
      rw [← head?_together ih.pos] at hne
      exact apart_cons.mpr ⟨Nat.one_pos, hne, ih⟩

/-- Equal moves in front of moves that begin with another one are the first stretch. -/
theorem runs_replicate_append (h : ds.head? ≠ some d) (hn : 0 < n) :
    runs (List.replicate n d ++ ds) = (d, n) :: runs ds := by
  obtain ⟨n, rfl⟩ := Nat.exists_eq_succ_of_ne_zero (Nat.ne_of_gt hn)
  clear hn
  induction n with
  | zero =>
    rcases runs_cons d ds with ⟨n, rest, hruns, -⟩ | ⟨-, heq⟩
    · have hhead := head?_together (apart_runs ds).pos
      rw [together_runs, hruns] at hhead
      exact absurd hhead h
    · exact heq
  | succ n ih =>
    rw [List.replicate_succ, List.cons_append, runs, ih]
    exact if_pos rfl

/-- **Stretches that are as long as they can be are the stretches of their moves.** -/
theorem runs_together (h : Apart ps) : runs (together ps) = ps := by
  induction ps with
  | nil => rfl
  | cons p ps ih =>
    obtain ⟨hn, hd, hps⟩ := apart_cons.mp h
    rw [together_cons, runs_replicate_append hd hn, ih hps]

/-! ### Runs -/

/-- **A run**: `n` equal moves, one at least, that go on at neither end. -/
def IsRun (ds : List Direction) (d : Direction) (n : Nat) : Prop :=
  ∃ before behind, ds = before ++ (List.replicate n d ++ behind) ∧ 0 < n ∧
    before.getLast? ≠ some d ∧ behind.head? ≠ some d

/-- **The stretches of moves are their runs.** -/
theorem mem_runs_iff : (d, n) ∈ runs ds ↔ IsRun ds d n := by
  constructor
  · intro h
    obtain ⟨ps, qs, heq⟩ := List.append_of_mem h
    have happart := apart_runs ds
    have hds := together_runs ds
    rw [heq] at happart hds
    obtain ⟨-, hbefore, hbehind⟩ := apart_append.mp happart
    obtain ⟨hn, hbehind, -⟩ := apart_cons.mp hbehind
    rw [together_append, together_cons] at hds
    exact ⟨together ps, together qs, hds.symm, hn, hbefore, hbehind⟩
  · rintro ⟨before, behind, rfl, hn, hbefore, hbehind⟩
    rw [← together_runs before] at hbefore
    rw [← together_runs behind] at hbehind
    have happart := apart_append.mpr ⟨apart_runs before, hbefore,
      apart_cons.mpr ⟨hn, hbehind, apart_runs behind⟩⟩
    have hruns := runs_together happart
    rw [together_append, together_cons, together_runs, together_runs] at hruns
    rw [hruns]
    exact List.mem_append_right _ List.mem_cons_self

/-! ### Pieces -/

/-- **The pieces of a listing**: each run, cut where a loop has as many rounds as it may. -/
def pieces (bound : Int) (ds : List Direction) : List (Direction × Nat) :=
  (runs ds).flatMap fun (d, n) => (cutLength bound.toNat n).map (d, ·)

/-- The lines of pieces, one for each. -/
def pieceLines (ps : List (Direction × Nat)) : List String :=
  ps.map fun p => scriptLine p.1 p.2

/-- The script that is made of pieces. -/
def listing (ps : List (Direction × Nat)) : String :=
  "\n".intercalate (pieceLines ps)

theorem script_eq_listing (bound : Int) (ds : List Direction) :
    script bound ds = listing (pieces bound ds) := by
  simp only [script, listing, pieceLines, pieces, List.map_flatMap, List.map_map]
  rfl

theorem together_map_cutLength (d : Direction) (ks : List Nat) :
    together (ks.map (d, ·)) = List.replicate (ks.foldr (· + ·) 0) d := by
  induction ks with
  | nil => rfl
  | cons k ks ih =>
    rw [List.map_cons, together_cons, ih, List.foldr_cons, List.replicate_add]

/-- **The pieces are the moves.** -/
theorem together_pieces (bound : Int) (ds : List Direction) : together (pieces bound ds) = ds := by
  have hcut : ∀ p : Direction × Nat,
      together ((cutLength bound.toNat p.2).map (p.1, ·)) = List.replicate p.2 p.1 := fun p => by
    rw [together_map_cutLength, foldr_cutLength]
  calc together (pieces bound ds)
      = (runs ds).flatMap fun p => together ((cutLength bound.toNat p.2).map (p.1, ·)) :=
        List.flatMap_assoc
    _ = together (runs ds) := by simp only [hcut]; rfl
    _ = ds := together_runs ds

/-- What a length is cut into: as many full pieces as go into it, and what is left. -/
theorem mem_cutLength :
    k ∈ cutLength size n ↔ k = size ∧ 0 < n / size ∨ k = n % size ∧ 0 < n % size := by
  unfold cutLength
  rw [List.mem_append, List.mem_replicate]
  split <;> simp <;> omega

theorem mem_pieces_iff :
    (d, k) ∈ pieces bound ds ↔ ∃ n, IsRun ds d n ∧ k ∈ cutLength bound.toNat n := by
  simp only [pieces, List.mem_flatMap, List.mem_map, Prod.exists, ← mem_runs_iff]
  constructor
  · rintro ⟨e, n, hn, k', hk, heq⟩
    cases heq
    exact ⟨n, hn, hk⟩
  · rintro ⟨n, hn, hk⟩
    exact ⟨d, n, hn, k, hk, rfl⟩

/-- No piece is longer than its run. -/
theorem le_of_mem_cutLength (h : k ∈ cutLength size n) : k ≤ n := by
  rcases mem_cutLength.mp h with ⟨rfl, hpos⟩ | ⟨rfl, -⟩
  · exact (Nat.div_pos_iff.mp hpos).2
  · exact Nat.mod_le n size

/-- No piece is longer than a loop may be. -/
theorem le_of_mem_pieces (hbound : 1 ≤ bound) (h : (d, k) ∈ pieces bound ds) :
    (k : Int) ≤ bound := by
  obtain ⟨n, -, hk⟩ := mem_pieces_iff.mp h
  have hlt : n % bound.toNat < bound.toNat := Nat.mod_lt n (by omega)
  rcases mem_cutLength.mp hk with ⟨rfl, -⟩ | ⟨rfl, -⟩ <;> omega

/-- **Some piece is longer than a length exactly if some run is and a loop may be.** -/
theorem exists_lt_pieces_iff (hbound : 1 ≤ bound) (ds : List Direction) (size : Nat) :
    (∃ d k, (d, k) ∈ pieces bound ds ∧ size < k) ↔
      ∃ d n, IsRun ds d n ∧ (size : Int) < min (n : Int) bound := by
  constructor
  · rintro ⟨d, k, hk, hlt⟩
    have hle := le_of_mem_pieces hbound hk
    obtain ⟨n, hn, hk⟩ := mem_pieces_iff.mp hk
    have hle' := le_of_mem_cutLength hk
    exact ⟨d, n, hn, by omega⟩
  · rintro ⟨d, n, hn, hlt⟩
    by_cases hfull : bound.toNat ≤ n
    · refine ⟨d, bound.toNat, mem_pieces_iff.mpr ⟨n, hn, mem_cutLength.mpr ?_⟩, by omega⟩
      exact Or.inl ⟨rfl, Nat.div_pos hfull (by omega)⟩
    · have hmod : n % bound.toNat = n := Nat.mod_eq_of_lt (Nat.not_le.mp hfull)
      refine ⟨d, n, mem_pieces_iff.mpr ⟨n, hn, mem_cutLength.mpr ?_⟩, by omega⟩
      exact Or.inr ⟨hmod.symm, by omega⟩

theorem pieces_eq_nil_iff : pieces bound ds = [] ↔ ds = [] := by
  constructor
  · intro h
    rw [← together_pieces bound ds, h, together_nil]
  · rintro rfl
    rfl

end ScriptedMaze.Route
