import Mathlib.Data.List.TakeWhile
import ScriptedMaze.Proofs.Script.Braces

/-!
# How a loop is spelled

The opening of a loop is fourteen tokens, from the word `for` to the parenthesis
before the body, and they are all fixed but for the number of rounds
(`Loop.IsOpening`). A body without braces is a **run**: the tokens up to the first
`;`, brace, end of the script or token on a line other than that of the first
(`Loop.run`).

The functions that take these parts from the front of the tokens succeed exactly
where they stand there: `Loop.takeHeader_eq_some` for the opening, and
`Loop.takeBody_eq_ok` for the run. A run takes a `;` on its line with it, and
there are two ways in which it fails. A loop may begin in it – also if only the
word `for` is in it and the parenthesis on the next line – and it may be cut
short by a closing brace on its line where no brace is open.
-/

namespace ScriptedMaze.Script

/-- The leaf of a token that asks for a move. -/
def moveNode? (t : Token) : Option Node :=
  match t.lexeme with
  | .move d => some (.move d t.line)
  | _ => none

theorem moveNode?_of_ne {t : Token} (h : ∀ d, t.lexeme ≠ .move d) : moveNode? t = none := by
  unfold moveNode?
  split
  · rename_i d hd
    exact absurd hd (h d)
  · rfl

namespace Loop

variable {f t : Token} {a b ts head later rest behind : List Token} {n n' line loopLine : Nat}

/-! ### The opening -/

/-- How the opening of a loop is spelled. -/
def opening (digits : String) : List Lexeme :=
  [.word "for", .openParen, .word "let", .word "i", .assign, .number "0", .semicolon,
    .word "i", .less, .number digits, .semicolon, .word "i", .increment, .closeParen]

/-- **The opening of a loop of `n` rounds**; the number has one or two digits. -/
def IsOpening (n : Nat) (ts : List Token) : Prop :=
  ∃ digits : String, ts.map Token.lexeme = opening digits ∧ digits.length ≤ 2 ∧
    numberValue digits = n

theorem atLoop_cons :
    atLoop (t :: ts) = true ↔ t.lexeme = .word "for" ∧ ∃ u rest, ts = u :: rest ∧
      u.lexeme = .openParen := by
  cases ts with
  | nil => simp [atLoop]
  | cons u rest => simp [atLoop]

theorem atLoop_eq_false (ht : t.lexeme ≠ .word "for") : atLoop (t :: ts) = false := by
  rw [← Bool.not_eq_true, atLoop_cons]
  exact fun h => ht h.1

namespace IsOpening

theorem length_eq (h : IsOpening n a) : a.length = 14 := by
  obtain ⟨digits, hmap, -⟩ := h
  have hlen := congrArg List.length hmap
  rwa [List.length_map] at hlen

theorem exists_cons (h : IsOpening n a) :
    ∃ f p head, a = f :: p :: head ∧ f.lexeme = .word "for" ∧ p.lexeme = .openParen := by
  obtain ⟨digits, hmap, -⟩ := h
  obtain ⟨f, rest, rfl, hf, hrest⟩ := List.map_eq_cons_iff.mp hmap
  obtain ⟨p, head, rfl, hp, -⟩ := List.map_eq_cons_iff.mp hrest
  exact ⟨f, p, head, rfl, hf, hp⟩

theorem atLoop_append (h : IsOpening n a) (rest : List Token) : atLoop (a ++ rest) = true := by
  obtain ⟨f, p, head, rfl, hf, hp⟩ := h.exists_cons
  exact atLoop_cons.mpr ⟨hf, p, head ++ rest, rfl, hp⟩

/-- No brace is in an opening. -/
theorem ne_brace (h : IsOpening n a) (ht : t ∈ a) :
    t.lexeme ≠ .openBrace ∧ t.lexeme ≠ .closeBrace := by
  obtain ⟨digits, hmap, -⟩ := h
  have hmem : t.lexeme ∈ opening digits := hmap ▸ List.mem_map_of_mem ht
  constructor <;> intro heq <;> simp [heq, opening] at hmem

/-- The end of the script is in no opening. -/
theorem ne_finish (h : IsOpening n a) (ht : t ∈ a) : t.lexeme ≠ .finish := by
  obtain ⟨digits, hmap, -⟩ := h
  have hmem : t.lexeme ∈ opening digits := hmap ▸ List.mem_map_of_mem ht
  intro heq
  simp [heq, opening] at hmem

theorem balanced (h : IsOpening n a) : Balanced a :=
  Balanced.of_no_braces fun _ => h.ne_brace

/-- The word `for` comes first in an opening and nowhere else. -/
theorem ne_for (h : IsOpening n (f :: head)) (ht : t ∈ head) : t.lexeme ≠ .word "for" := by
  obtain ⟨digits, hmap, -⟩ := h
  have htail : head.map Token.lexeme = (opening digits).tail := congrArg List.tail hmap
  have hmem : t.lexeme ∈ (opening digits).tail := htail ▸ List.mem_map_of_mem ht
  intro heq
  simp [heq, opening] at hmem

/-- No move is in an opening. -/
theorem moveNode?_eq_none (h : IsOpening n a) (ht : t ∈ a) : moveNode? t = none := by
  obtain ⟨digits, hmap, -⟩ := h
  have hmem : t.lexeme ∈ opening digits := hmap ▸ List.mem_map_of_mem ht
  refine moveNode?_of_ne fun d hd => ?_
  simp [hd, opening] at hmem

/-- There is one way to read an opening. -/
theorem unique (h : IsOpening n a) (h' : IsOpening n' b) (heq : a ++ later = b ++ rest) :
    a = b ∧ n = n' ∧ later = rest := by
  obtain ⟨rfl, rfl⟩ := List.append_inj heq (h.length_eq.trans h'.length_eq.symm)
  refine ⟨rfl, ?_, rfl⟩
  obtain ⟨digits, hmap, -, rfl⟩ := h
  obtain ⟨digits', hmap', -, rfl⟩ := h'
  have hsame : opening digits = opening digits' := hmap.symm.trans hmap'
  simp only [opening, List.cons.injEq, Lexeme.number.injEq, true_and, and_true] at hsame
  rw [hsame]

end IsOpening

theorem dropLexemes_eq_some {ks : List Lexeme} :
    dropLexemes ks ts = some rest ↔ ∃ front, ts = front ++ rest ∧ front.map Token.lexeme = ks := by
  fun_induction dropLexemes ks ts with
  | case1 ts =>
    constructor
    · rintro h
      cases h
      exact ⟨[], rfl, rfl⟩
    · rintro ⟨front, rfl, hmap⟩
      rw [List.map_eq_nil_iff.mp hmap, List.nil_append]
  | case2 k ks =>
    constructor
    · intro h
      cases h
    · rintro ⟨front, heq, hmap⟩
      obtain ⟨rfl, -⟩ := List.append_eq_nil_iff.mp heq.symm
      cases hmap
  | case3 ks t ts ih =>
    rw [ih]
    constructor
    · rintro ⟨front, rfl, rfl⟩
      exact ⟨t :: front, rfl, rfl⟩
    · rintro ⟨front, heq, hmap⟩
      obtain ⟨u, front, rfl, -, hfront⟩ := List.map_eq_cons_iff.mp hmap
      exact ⟨front, (List.cons_eq_cons.mp heq).2, hfront⟩
  | case4 k ks t ts hne =>
    constructor
    · intro h
      cases h
    · rintro ⟨front, heq, hmap⟩
      obtain ⟨u, front, rfl, hu, -⟩ := List.map_eq_cons_iff.mp hmap
      exact absurd ((List.cons_eq_cons.mp heq).1 ▸ hu) hne

/-- **A header is taken exactly where the rest of an opening stands.** -/
theorem takeHeader_eq_some (hf : f.lexeme = .word "for") :
    takeHeader ts = some (n, rest) ↔ ∃ head, ts = head ++ rest ∧ IsOpening n (f :: head) := by
  constructor
  · intro h
    unfold takeHeader at h
    split at h
    · rename_i digits l c ts' hfirst
      split at h
      · rename_i hlen
        obtain ⟨rest', hlast, heq⟩ := Option.map_eq_some_iff.mp h
        cases heq
        obtain ⟨first, rfl, hopening⟩ := dropLexemes_eq_some.mp hfirst
        obtain ⟨last, rfl, hclosing⟩ := dropLexemes_eq_some.mp hlast
        refine ⟨first ++ ⟨.number digits, l, c⟩ :: last, by simp, digits, ?_, hlen, rfl⟩
        simp only [List.map_cons, List.map_append, hf, hopening, hclosing]
        rfl
      · cases h
    · cases h
  · rintro ⟨head, rfl, digits, hmap, hlen, rfl⟩
    rw [List.map_cons] at hmap
    have hhead : head.map Token.lexeme = headerOpening ++ .number digits :: headerClosing :=
      (List.cons_eq_cons.mp hmap).2
    obtain ⟨first, second, rfl, hfirst, hsecond⟩ := List.map_eq_append_iff.mp hhead
    obtain ⟨⟨k, l, c⟩, last, rfl, rfl, hlast⟩ := List.map_eq_cons_iff.mp hsecond
    have htake : dropLexemes headerOpening (first ++ ⟨.number digits, l, c⟩ :: last ++ rest) =
        some (⟨.number digits, l, c⟩ :: (last ++ rest)) :=
      dropLexemes_eq_some.mpr ⟨first, by simp, hfirst⟩
    rw [takeHeader, htake]
    dsimp only
    rw [if_pos hlen, dropLexemes_eq_some.mpr ⟨last, rfl, hlast⟩, Option.map_some]

/-! ### Stretches without a loop -/

/-- **No loop begins in a stretch** that is followed by `behind`. -/
def LoopFree : (stretch behind : List Token) → Prop
  | [], _ => True
  | t :: ts, behind => atLoop (t :: (ts ++ behind)) = false ∧ LoopFree ts behind

theorem loopFree_append :
    LoopFree (a ++ b) behind ↔ LoopFree a (b ++ behind) ∧ LoopFree b behind := by
  induction a with
  | nil => simp [LoopFree]
  | cons t a ih =>
    rw [List.cons_append, LoopFree, LoopFree, ih, and_assoc, List.append_assoc]

theorem loopFree_of_ne_for (h : ∀ t ∈ ts, t.lexeme ≠ .word "for") : LoopFree ts behind := by
  induction ts with
  | nil => trivial
  | cons t ts ih =>
    exact ⟨atLoop_eq_false (h t List.mem_cons_self),
      ih fun u hu => h u (List.mem_cons_of_mem t hu)⟩

/-- A loop that does not begin before a stretch without loops begins behind it. -/
theorem LoopFree.exists_append {s : List Token} (h : LoopFree a behind) (hs : atLoop s = true)
    (heq : a ++ behind = b ++ s) : ∃ c, b = a ++ c ∧ behind = c ++ s := by
  induction a generalizing b with
  | nil => exact ⟨b, rfl, heq⟩
  | cons t a ih =>
    cases b with
    | nil =>
      rw [List.nil_append] at heq
      rw [← heq, List.cons_append, h.1] at hs
      cases hs
    | cons u b =>
      obtain ⟨rfl, htail⟩ := List.cons_eq_cons.mp heq
      obtain ⟨c, rfl, hc⟩ := ih h.2 htail
      exact ⟨c, rfl, hc⟩

/-- Where nothing follows a stretch without loops, there is no loop. -/
theorem LoopFree.not_atLoop {s : List Token} (h : LoopFree a []) (heq : a = b ++ s) :
    ¬atLoop s = true := by
  intro hs
  obtain ⟨c, -, hc⟩ := h.exists_append hs ((List.append_nil a).trans heq)
  obtain ⟨-, rfl⟩ := List.append_eq_nil_iff.mp hc.symm
  cases hs

/-- The loops of a stretch without loops behind its first token are that at its front,
if there is one, and those behind it. -/
theorem LoopFree.forall_iff {more : List Token} {Q : List Token → List Token → Prop}
    (h : LoopFree more behind) :
    (∀ a s, t :: (more ++ behind) = a ++ s → atLoop s = true → Q a s) ↔
      (atLoop (t :: (more ++ behind)) = true → Q [] (t :: (more ++ behind))) ∧
        ∀ c s, behind = c ++ s → atLoop s = true → Q (t :: more ++ c) s := by
  constructor
  · refine fun hall => ⟨hall [] _ rfl, ?_⟩
    rintro c s rfl hs
    exact hall (t :: more ++ c) s (by simp) hs
  · rintro ⟨hfront, hbehind⟩ a s heq hs
    cases a with
    | nil =>
      cases heq
      exact hfront hs
    | cons u a =>
      obtain ⟨rfl, htail⟩ := List.cons_eq_cons.mp heq
      obtain ⟨c, rfl, hc⟩ := h.exists_append hs htail
      exact hbehind c s hc hs

/-- An opening that ends behind a stretch without loops does not begin in it. -/
theorem LoopFree.suffix (h : LoopFree a (b ++ behind)) (ho : IsOpening n ts)
    (hsuf : ts <:+ a ++ b) : ts <:+ b := by
  obtain ⟨d, hd⟩ := hsuf
  have heq : a ++ (b ++ behind) = d ++ (ts ++ behind) := by
    rw [← List.append_assoc, ← List.append_assoc, hd]
  obtain ⟨c, -, hc⟩ := h.exists_append (ho.atLoop_append behind) heq
  rw [← List.append_assoc] at hc
  exact ⟨c, (List.append_cancel_right hc).symm⟩

/-! ### Runs -/

/-- Whether a token goes on with a run on a line. -/
def inRun (line : Nat) (t : Token) : Bool :=
  t.line = line && t.lexeme ≠ .semicolon && t.lexeme ≠ .openBrace && t.lexeme ≠ .closeBrace &&
    t.lexeme ≠ .finish

/-- **The run with which the tokens begin**: those up to the first `;`, brace, end of the
script or token on a line other than that of the first. -/
def run : List Token → List Token
  | [] => []
  | t :: ts => (t :: ts).takeWhile (inRun t.line)

/-- The tokens behind the run. -/
def behindRun : List Token → List Token
  | [] => []
  | t :: ts => (t :: ts).dropWhile (inRun t.line)

/-- **The run is cut short**: it ends at a closing brace on its line. -/
def CutShort (ts : List Token) : Prop :=
  ∃ t x rest, ts.head? = some t ∧ behindRun ts = x :: rest ∧ x.lexeme = .closeBrace ∧
    x.line = t.line

/-- What is left behind a run on a line: a `;` goes with the run. -/
def afterSemicolon (line : Nat) : List Token → List Token
  | [] => []
  | t :: ts => if t.lexeme = .semicolon ∧ t.line = line then ts else t :: ts

theorem run_append_behindRun (ts : List Token) : run ts ++ behindRun ts = ts := by
  cases ts with
  | nil => rfl
  | cons t ts => exact List.takeWhile_append_dropWhile

theorem inRun_eq_true :
    inRun line t = true ↔ t.line = line ∧ t.lexeme ≠ .semicolon ∧ t.lexeme ≠ .openBrace ∧
      t.lexeme ≠ .closeBrace ∧ t.lexeme ≠ .finish := by
  simp [inRun, and_assoc]

/-- The braces are in no run. -/
theorem ne_brace_of_mem_run (ht : t ∈ run ts) :
    t.lexeme ≠ .openBrace ∧ t.lexeme ≠ .closeBrace := by
  cases ts with
  | nil => cases ht
  | cons u ts =>
    obtain ⟨-, -, ho, hx, -⟩ := inRun_eq_true.mp (List.mem_takeWhile_imp ht)
    exact ⟨ho, hx⟩

/-- The end of the script is in no run. -/
theorem ne_finish_of_mem_run (ht : t ∈ run ts) : t.lexeme ≠ .finish := by
  cases ts with
  | nil => cases ht
  | cons u ts =>
    obtain ⟨-, -, -, -, hfin⟩ := inRun_eq_true.mp (List.mem_takeWhile_imp ht)
    exact hfin

/-- A line whose run is empty is done with, unless it is cut short. -/
theorem takeLine_of_not_inRun {inBlock : Bool} (h : inRun line t = false) :
    takeLine line loopLine inBlock (t :: ts) =
      if t.lexeme = .closeBrace ∧ t.line = line ∧ inBlock = false then
        .error (.bodyCutOff loopLine)
      else .ok ([], afterSemicolon line (t :: ts)) := by
  rw [← Bool.not_eq_true, inRun_eq_true] at h
  unfold takeLine afterSemicolon
  by_cases hline : t.line = line
  · cases hk : t.lexeme <;> cases inBlock <;> simp_all
  · simp [hline]

/-- A token of the run adds its move to what is taken behind it. -/
theorem takeLine_of_inRun {inBlock : Bool} (h : inRun line t = true) :
    takeLine line loopLine inBlock (t :: ts) =
      if atLoop (t :: ts) then .error (.nestedWithoutBraces t.line)
      else (takeLine line loopLine inBlock ts).map fun p => ((moveNode? t).toList ++ p.1, p.2) := by
  obtain ⟨hline, hsemi, hopen, hclose, hfin⟩ := inRun_eq_true.mp h
  rw [takeLine, if_neg (by simp [hfin, hopen, hline]), if_neg hsemi, if_neg hclose]
  congr 1
  unfold moveNode?
  cases takeLine line loopLine inBlock ts with
  | error e => rfl
  | ok p => cases t.lexeme <;> rfl

/-- **A line is taken exactly if no loop begins in its run and the run is not cut
short where no brace is open.** -/
theorem takeLine_eq_ok {inBlock : Bool} {nodes : List Node} :
    takeLine line loopLine inBlock ts = .ok (nodes, rest) ↔
      LoopFree (ts.takeWhile (inRun line)) (ts.dropWhile (inRun line)) ∧
        (∀ x later, ts.dropWhile (inRun line) = x :: later → x.lexeme = .closeBrace →
          x.line = line → inBlock = true) ∧
        nodes = (ts.takeWhile (inRun line)).filterMap moveNode? ∧
        rest = afterSemicolon line (ts.dropWhile (inRun line)) := by
  induction ts generalizing nodes rest with
  | nil => simp [takeLine, LoopFree, afterSemicolon]
  | cons t ts ih =>
    cases hin : inRun line t with
    | false =>
      -- the run is empty, and the token that ends it may be a brace that closes nothing
      rw [takeLine_of_not_inRun hin, List.takeWhile_cons_of_neg (by simp [hin]),
        List.dropWhile_cons_of_neg (by simp [hin])]
      split
      · rename_i hcut
        constructor
        · intro h
          cases h
        · rintro ⟨-, hblock, -⟩
          rw [hblock t ts rfl hcut.1 hcut.2.1] at hcut
          exact absurd hcut.2.2.symm Bool.false_ne_true
      · rename_i hcut
        constructor
        · intro h
          cases h
          refine ⟨trivial, ?_, rfl, rfl⟩
          intro x later heq hx hline
          cases heq
          simpa [hx, hline] using hcut
        · rintro ⟨-, -, rfl, rfl⟩
          rfl
    | true =>
      -- the token's move, if it is one, comes before those of the rest of the run
      have hmoves : (t :: ts.takeWhile (inRun line)).filterMap moveNode? =
          (moveNode? t).toList ++ (ts.takeWhile (inRun line)).filterMap moveNode? := by
        rw [List.filterMap_cons]
        cases moveNode? t <;> rfl
      rw [takeLine_of_inRun hin, List.takeWhile_cons_of_pos hin, List.dropWhile_cons_of_pos hin,
        LoopFree, List.takeWhile_append_dropWhile, hmoves]
      cases hloop : atLoop (t :: ts) with
      | true => simp
      | false =>
        rw [if_neg Bool.false_ne_true]
        cases hrec : takeLine line loopLine inBlock ts with
        | error e =>
          constructor
          · intro h
            cases h
          · rintro ⟨⟨-, hfree⟩, hcut, -, -⟩
            cases hrec.symm.trans (ih.mpr ⟨hfree, hcut, rfl, rfl⟩)
        | ok p =>
          obtain ⟨hfree, hcut, hnodes, hrest⟩ := ih.mp hrec
          constructor
          · intro h
            cases h
            exact ⟨⟨rfl, hfree⟩, hcut, by rw [hnodes], hrest⟩
          · rintro ⟨-, -, rfl, rfl⟩
            rw [← hnodes, ← hrest]
            rfl

/-- **A body without braces is taken exactly if there is something to take, no
loop begins in its run, and the run is not cut short where no brace is open.** -/
theorem takeBody_eq_ok (loopLine : Nat) (inBlock : Bool) {nodes : List Node} :
    takeBody loopLine inBlock (t :: ts) = .ok (nodes, rest) ↔
      t.lexeme ≠ .finish ∧ LoopFree (run (t :: ts)) (behindRun (t :: ts)) ∧
        (CutShort (t :: ts) → inBlock = true) ∧ nodes = (run (t :: ts)).filterMap moveNode? ∧
        rest = afterSemicolon t.line (behindRun (t :: ts)) := by
  have hcut : (CutShort (t :: ts) → inBlock = true) ↔
      ∀ x later, behindRun (t :: ts) = x :: later → x.lexeme = .closeBrace → x.line = t.line →
        inBlock = true := by
    constructor
    · exact fun h x later heq hx hline => h ⟨t, x, later, rfl, heq, hx, hline⟩
    · rintro h ⟨u, x, later, hu, heq, hx, hline⟩
      cases hu
      exact h x later heq hx hline
  rw [takeBody, hcut]
  split
  · rename_i hfin
    simp [hfin]
  · rename_i hfin
    rw [takeLine_eq_ok]
    simp only [hfin, ne_eq, not_false_eq_true, true_and, run, behindRun]

/-! ### Bodies without braces -/

/-- **A body without braces**, followed by `behind`: a run, and a `;` that goes with it
if there is one. -/
structure IsBody (body behind : List Token) : Prop where
  /-- Something comes first, and it is neither a brace that opens nor the end. -/
  first : ∃ t later, body ++ behind = t :: later ∧ t.lexeme ≠ .openBrace ∧ t.lexeme ≠ .finish
  loopFree_run : LoopFree (run (body ++ behind)) (behindRun (body ++ behind))
  eq_run : body = run (body ++ behind) ∨
    ∃ s : Token, s.lexeme = .semicolon ∧ body = run (body ++ behind) ++ [s]

theorem afterSemicolon_cases (line : Nat) (ts : List Token) :
    afterSemicolon line ts = ts ∨
      ∃ s : Token, s.lexeme = .semicolon ∧ ts = s :: afterSemicolon line ts := by
  cases ts with
  | nil => exact Or.inl rfl
  | cons t ts =>
    rw [afterSemicolon]
    split
    · rename_i h
      exact Or.inr ⟨t, h.1, rfl⟩
    · exact Or.inl rfl

/-- A body that is taken is a body. -/
theorem exists_isBody (ho : t.lexeme ≠ .openBrace) (hfin : t.lexeme ≠ .finish)
    (hfree : LoopFree (run (t :: ts)) (behindRun (t :: ts))) :
    ∃ body, t :: ts = body ++ afterSemicolon t.line (behindRun (t :: ts)) ∧
      IsBody body (afterSemicolon t.line (behindRun (t :: ts))) := by
  have hrun := run_append_behindRun (t :: ts)
  rcases afterSemicolon_cases t.line (behindRun (t :: ts)) with heq | ⟨s, hs, heq⟩
  · rw [heq]
    refine ⟨run (t :: ts), hrun.symm, ?_, ?_, ?_⟩ <;> rw [hrun]
    · exact ⟨t, ts, rfl, ho, hfin⟩
    · exact hfree
    · exact Or.inl rfl
  · have hall : run (t :: ts) ++ [s] ++ afterSemicolon t.line (behindRun (t :: ts)) = t :: ts := by
      rw [List.append_assoc, List.singleton_append, ← heq, hrun]
    refine ⟨run (t :: ts) ++ [s], hall.symm, ?_, ?_, ?_⟩ <;> rw [hall]
    · exact ⟨t, ts, rfl, ho, hfin⟩
    · exact hfree
    · exact Or.inr ⟨s, hs, rfl⟩

namespace IsBody

variable {body : List Token}

theorem loopFree (h : IsBody body behind) : LoopFree body behind := by
  have hrun := run_append_behindRun (body ++ behind)
  have hfree := h.loopFree_run
  rcases h.eq_run with heq | ⟨s, hs, heq⟩
  · rw [← heq] at hrun hfree
    rwa [List.append_cancel_left hrun] at hfree
  · generalize run (body ++ behind) = r at hrun hfree heq
    subst heq
    rw [List.append_assoc] at hrun hfree
    rw [List.append_cancel_left hrun] at hfree
    exact loopFree_append.mpr ⟨hfree, atLoop_eq_false (by rw [hs]; decide), trivial⟩

theorem balanced (h : IsBody body behind) : Balanced body := by
  have hrun : Balanced (run (body ++ behind)) := Balanced.of_no_braces fun _ => ne_brace_of_mem_run
  rcases h.eq_run with heq | ⟨s, hs, heq⟩
  · rwa [← heq] at hrun
  · rw [heq]
    refine hrun.append (Balanced.of_no_braces ?_)
    intro t ht
    rw [List.mem_singleton.mp ht, hs]
    exact ⟨by decide, by decide⟩

/-- The end of the script is in no body. -/
theorem ne_finish (h : IsBody body behind) (ht : t ∈ body) : t.lexeme ≠ .finish := by
  rcases h.eq_run with heq | ⟨s, hs, heq⟩
  · rw [heq] at ht
    exact ne_finish_of_mem_run ht
  · rw [heq, List.mem_append, List.mem_singleton] at ht
    rcases ht with ht | rfl
    · exact ne_finish_of_mem_run ht
    · simp [hs]

/-- The moves of a body are those of its run. -/
theorem filterMap_eq (h : IsBody body behind) :
    body.filterMap moveNode? = (run (body ++ behind)).filterMap moveNode? := by
  rcases h.eq_run with heq | ⟨s, hs, heq⟩
  · rw [← heq]
  · have hnone : moveNode? s = none := by rw [moveNode?, hs]
    conv_lhs => rw [heq, List.filterMap_append, List.filterMap_cons_none hnone]
    exact List.append_nil _

/-- A body without a run is followed by something other than an opening brace. -/
theorem ne_openBrace {o : Token} {rest : List Token} (h : IsBody [] (o :: rest)) :
    o.lexeme ≠ .openBrace := by
  obtain ⟨t, later, heq, ho, -⟩ := h.first
  cases heq
  exact ho

end IsBody

end Loop

end ScriptedMaze.Script
