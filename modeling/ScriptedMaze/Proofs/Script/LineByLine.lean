import ScriptedMaze.Proofs.Script.Lines
import ScriptedMaze.Proofs.Script.Steps
import ScriptedMaze.Proofs.Script.Unrolled

/-!
# Reading line by line

A line that is accepted as a script of its own is read within a script to the same moves
and at the same cost (`Reading.exists_run_of_line`). The two readings differ, though. In the
whole script a brace that a line leaves open is still open below it, and so a closing brace
that closes nothing on its own line may close that one, and a loop without braces may stand
in front of a closing brace that would cut it short if its line stood alone. But what a line
leaves open can only be a brace that groups, since the brace of a loop has to be closed
where the script ends, and such a brace neither keeps moves apart nor counts as a loop.

So the reading of the whole script is followed while one line of it is read alone
(`Reading.Alongside`). Whatever the line has opened is open in both, and below that the
whole script has braces that only group (`Beneath`). Both have the same tokens to come, on
different lines, but behind those of the line there is the end in one of them, and another
line or the end in the other. The parts of a loop end there alike, with one exception: the
word `for` at the end of a line begins a loop if the next line begins with a parenthesis.
-/

namespace ScriptedMaze.Script

open Loop

variable {maxBound maxDepth : Int}

/-! ### Trees that are unrolled alike -/

/-- **Two trees are unrolled alike**: to the same moves, at the same cost. -/
structure SameMoves (a b : List Node) : Prop where
  unrolled_eq : unrolled a = unrolled b
  cost_eq : cost a = cost b

namespace SameMoves

variable {a a' b b' c : List Node}

theorem refl (a : List Node) : SameMoves a a := ⟨rfl, rfl⟩

theorem trans (h : SameMoves a b) (h' : SameMoves b c) : SameMoves a c :=
  ⟨h.unrolled_eq.trans h'.unrolled_eq, h.cost_eq.trans h'.cost_eq⟩

theorem append (h : SameMoves a b) (h' : SameMoves a' b') : SameMoves (a ++ a') (b ++ b') where
  unrolled_eq := by rw [unrolled_append, unrolled_append, h.unrolled_eq, h'.unrolled_eq]
  cost_eq := by rw [cost_append, cost_append, h.cost_eq, h'.cost_eq]

/-- The line of a loop does not matter. -/
theorem loop (h : SameMoves a b) (n : Nat) (braced : Bool) (line line' : Nat) :
    SameMoves [.loop n a braced line] [.loop n b braced line'] where
  unrolled_eq := by simp only [unrolled, Node.unrolled, h.unrolled_eq]
  cost_eq := by simp only [cost, Node.cost, h.cost_eq]

theorem move (d : Direction) (line line' : Nat) :
    SameMoves [.move d line] [.move d line'] := ⟨rfl, rfl⟩

/-- The line of a token does not matter. -/
theorem moveNode (n : Nat) (t : Token) :
    SameMoves (moveNode? (t.onLine n)).toList (moveNode? t).toList := by
  unfold moveNode?
  rw [Token.lexeme_onLine]
  split
  · exact .move _ _ _
  · exact .refl _

end SameMoves

/-! ### The tokens of a line -/

/-- **The tokens of a line** without its end; the word `for` does not come last. -/
structure LineTokens (l : Nat) (us : List Token) : Prop where
  line_eq : ∀ t ∈ us, t.line = l
  ne_finish : ∀ t ∈ us, t.lexeme ≠ .finish
  last_ne : ∀ t ∈ us.getLast?, t.lexeme ≠ .word "for"

/-- What stands below a line: the end of the script, or tokens on another line. -/
def Below (n : Nat) (behind : List Token) : Prop :=
  ∀ t ∈ behind.head?, t.lexeme = .finish ∨ t.line ≠ n

section Line

variable {l n k : Nat} {b b' : Bool} {t e : Token} {us behind rest : List Token}
  {nodes : List Node}

theorem LineTokens.suffix {us' : List Token} (h : LineTokens l us) (hs : us' <:+ us) :
    LineTokens l us' where
  line_eq t ht := h.line_eq t (hs.subset ht)
  ne_finish t ht := h.ne_finish t (hs.subset ht)
  last_ne t ht := by
    obtain ⟨a, rfl⟩ := hs
    refine h.last_ne t ?_
    rw [List.getLast?_append, Option.mem_def.mp ht]
    rfl

namespace Loop

/-- **A loop begins on a line exactly if it begins there when the line stands alone.** -/
theorem atLoop_onLine (h : LineTokens l (t :: us)) (n : Nat) (behind : List Token) (e : Token) :
    atLoop (t.onLine n :: (us.map (Token.onLine n) ++ behind)) = atLoop (t :: (us ++ [e])) := by
  cases us with
  | nil =>
    have hfor : t.lexeme ≠ .word "for" := h.last_ne t rfl
    rw [atLoop_eq_false hfor, atLoop_eq_false (by exact hfor)]
  | cons u us => rfl

theorem inRun_onLine (ht : t.line = l) (n : Nat) : inRun n (t.onLine n) = inRun l t := by
  rw [Bool.eq_iff_iff, inRun_eq_true, inRun_eq_true, ht]
  simp

/-- Nothing more is taken from a line below which the tokens stand. -/
theorem takeLine_of_below (hbelow : Below n behind) : takeLine n k b behind = .ok ([], behind) := by
  cases behind with
  | nil => rfl
  | cons u behind =>
    rw [takeLine, if_pos]
    rcases hbelow u rfl with hu | hu
    · exact Or.inl hu
    · exact Or.inr (Or.inr hu)

/-- A body without braces ends with its line. -/
theorem takeLine_onLine (k' : Nat) (h : LineTokens l us) (he : e.lexeme = .finish)
    (hbelow : Below n behind) (hb : b = true → b' = true)
    (htake : takeLine l k b (us ++ [e]) = .ok (nodes, rest)) :
    ∃ us' nodes', us' <:+ us ∧ rest = us' ++ [e] ∧ SameMoves nodes' nodes ∧
      takeLine n k' b' (us.map (Token.onLine n) ++ behind) =
        .ok (nodes', us'.map (Token.onLine n) ++ behind) := by
  induction us generalizing nodes rest with
  | nil =>
    have hend : inRun l e = false := by simp [inRun, he]
    rw [List.nil_append, takeLine_of_not_inRun hend, if_neg (by simp [he])] at htake
    cases htake
    refine ⟨[], [], List.suffix_rfl, by simp [afterSemicolon, he], .refl [], ?_⟩
    exact takeLine_of_below hbelow
  | cons t us ih =>
    have ht : t.line = l := h.line_eq t List.mem_cons_self
    rw [List.cons_append] at htake
    rw [List.map_cons, List.cons_append]
    cases hin : inRun l t with
    | false =>
      rw [takeLine_of_not_inRun hin] at htake
      rw [takeLine_of_not_inRun ((inRun_onLine ht n).trans hin)]
      split at htake
      · cases htake
      · rename_i hcut
        cases htake
        have hcut' : ¬((t.onLine n).lexeme = .closeBrace ∧ (t.onLine n).line = n ∧ b' = false) := by
          rintro ⟨hclose, -, hb'⟩
          exact hcut ⟨hclose, ht, eq_false_of_ne_true fun hb₁ => by simp [hb hb₁] at hb'⟩
        rw [if_neg hcut']
        by_cases hsemi : t.lexeme = .semicolon
        · exact ⟨us, [], List.suffix_cons t us, by simp [afterSemicolon, hsemi, ht], .refl [],
            by simp [afterSemicolon, hsemi]⟩
        · exact ⟨t :: us, [], List.suffix_rfl, by simp [afterSemicolon, hsemi], .refl [],
            by simp [afterSemicolon, hsemi]⟩
    | true =>
      rw [takeLine_of_inRun hin, ← atLoop_onLine h n behind] at htake
      rw [takeLine_of_inRun ((inRun_onLine ht n).trans hin)]
      split at htake
      · cases htake
      · rename_i hloop
        cases hmore : takeLine l k b (us ++ [e]) with
        | error f =>
          rw [hmore] at htake
          cases htake
        | ok p =>
          rw [hmore] at htake
          cases htake
          have hus := List.suffix_cons t us
          obtain ⟨us', more, hsuf, hrest, hsame, htake'⟩ := ih (h.suffix hus) hmore
          rw [if_neg hloop, htake']
          exact ⟨us', _, hsuf.trans hus, hrest, (SameMoves.moveNode n t).append hsame, rfl⟩

/-- The opening of a loop on another line. -/
theorem IsOpening.onLine {c : Nat} {a : List Token} (h : IsOpening c a) (n : Nat) :
    IsOpening c (a.map (Token.onLine n)) := by
  obtain ⟨digits, hmap, hlen, hvalue⟩ := h
  refine ⟨digits, ?_, hlen, hvalue⟩
  rw [List.map_map]
  exact hmap

/-- A header ends on its line. -/
theorem takeHeader_onLine {f : Token} {c : Nat} (hf : f.lexeme = .word "for")
    (he : e.lexeme = .finish) (htake : takeHeader (us ++ [e]) = some (c, rest)) (n : Nat)
    (behind : List Token) :
    ∃ us', us' <:+ us ∧ rest = us' ++ [e] ∧
      takeHeader (us.map (Token.onLine n) ++ behind) =
        some (c, us'.map (Token.onLine n) ++ behind) := by
  obtain ⟨head, heq, hopening⟩ := (takeHeader_eq_some hf).mp htake
  have hmem : e ∉ head := fun hmem => hopening.ne_finish (List.mem_cons_of_mem f hmem) he
  obtain ⟨us', rfl, rfl⟩ : ∃ us', us = head ++ us' ∧ rest = us' ++ [e] := by
    rcases List.append_eq_append_iff.mp heq with ⟨b, rfl, hb⟩ | ⟨us', rfl, rfl⟩
    · cases b with
      | nil => exact ⟨[], by simp, by simpa using hb.symm⟩
      | cons u b =>
        obtain ⟨rfl, -⟩ := List.cons_eq_cons.mp hb
        exact absurd (List.mem_append_right us List.mem_cons_self) hmem
    · exact ⟨us', rfl, rfl⟩
  refine ⟨us', List.suffix_append head us', rfl, ?_⟩
  rw [List.map_append, List.append_assoc]
  exact (takeHeader_eq_some (f := f.onLine n) hf).mpr ⟨_, rfl, hopening.onLine n⟩

end Loop

end Line

/-! ### What is open on a line -/

/-- **What has been opened and read on a line, and what of the whole script**: the braces of
the line, the innermost first, with the nodes of the innermost block, and the same of the
script down to the line. Below the braces of the line there are braces that only group, and
before what the line has read come the nodes `earlier`. -/
inductive Beneath (earlier : List Node) :
    List OpenBrace → List Node → List OpenBrace → List Node → Prop
  /-- The line has opened nothing. -/
  | top {outer : List OpenBrace} {nodes nodes' : List Node} :
      (∀ brace ∈ outer, brace = .group) →
      SameMoves nodes'.reverse (earlier ++ nodes.reverse) →
      Beneath earlier [] nodes outer nodes'
  /-- The line has opened a brace that only groups. -/
  | group {braces braces' : List OpenBrace} {nodes nodes' : List Node} :
      Beneath earlier braces nodes braces' nodes' →
      Beneath earlier (.group :: braces) nodes (.group :: braces') nodes'
  /-- The line has opened the brace of a loop. -/
  | loop {braces braces' : List OpenBrace} {before before' nodes nodes' : List Node}
      {n line line' : Nat} : Beneath earlier braces before braces' before' →
      SameMoves nodes'.reverse nodes.reverse →
      Beneath earlier (.loop n line before :: braces) nodes (.loop n line' before' :: braces')
        nodes'

namespace Beneath

variable {earlier nodes nodes' : List Node} {braces braces' : List OpenBrace}

/-- Both read a node more in the innermost block. -/
theorem cons {node node' : Node} (h : Beneath earlier braces nodes braces' nodes')
    (hnode : SameMoves [node'] [node]) :
    Beneath earlier braces (node :: nodes) braces' (node' :: nodes') := by
  induction h with
  | top houter hsame =>
    refine .top houter ?_
    rw [List.reverse_cons, List.reverse_cons, ← List.append_assoc]
    exact hsame.append hnode
  | group _ ih => exact .group ih
  | loop hbelow hsame =>
    refine .loop hbelow ?_
    rw [List.reverse_cons, List.reverse_cons]
    exact hsame.append hnode

/-- As many loops are open in both. -/
theorem openLoops_eq {r R : Reading} (h : Beneath earlier r.braces nodes R.braces nodes') :
    R.openLoops = r.openLoops := by
  obtain ⟨braces, _, _⟩ := r
  obtain ⟨braces', _, _⟩ := R
  unfold Reading.openLoops
  dsimp only at h ⊢
  induction h with
  | top houter _ =>
    refine congrArg List.length (List.filterMap_eq_nil_iff.mpr fun brace hbrace => ?_)
    rw [houter brace hbrace]
    rfl
  | group _ ih => exact ih
  | loop _ _ ih => exact congrArg (· + 1) ih

theorem ne_nil (h : Beneath earlier braces nodes braces' nodes') (hne : braces ≠ []) :
    braces' ≠ [] := by
  cases h with
  | top => exact absurd rfl hne
  | group => exact List.cons_ne_nil _ _
  | loop => exact List.cons_ne_nil _ _

/-- A closing brace closes the same in both, unless it closes nothing on its line. -/
theorem closeBrace {r R : Reading} (h : Beneath earlier r.braces r.nodes R.braces R.nodes)
    (later later' : List Token) :
    Beneath earlier (r.closeBrace later).braces (r.closeBrace later).nodes
      (R.closeBrace later').braces (R.closeBrace later').nodes := by
  obtain ⟨braces, nodes, _⟩ := r
  obtain ⟨braces', nodes', _⟩ := R
  dsimp only at h
  cases h with
  | top houter hsame =>
    cases braces' with
    | nil => exact .top houter hsame
    | cons brace outer =>
      obtain ⟨rfl, houter'⟩ := List.forall_mem_cons.mp houter
      exact .top houter' hsame
  | group hbelow => exact hbelow
  | loop hbelow hsame => exact hbelow.cons (hsame.loop _ true _ _)

/-- Where only braces that group are open on a line, the nodes are those before the line and
those of the line. -/
theorem groups (h : Beneath earlier braces nodes braces' nodes')
    (hbraces : ∀ brace ∈ braces, brace = .group) :
    (∀ brace ∈ braces', brace = .group) ∧
      SameMoves nodes'.reverse (earlier ++ nodes.reverse) := by
  induction h with
  | top houter hsame => exact ⟨houter, hsame⟩
  | group _ ih =>
    obtain ⟨hgroups, hsame⟩ := ih (List.forall_mem_cons.mp hbraces).2
    exact ⟨List.forall_mem_cons.mpr ⟨rfl, hgroups⟩, hsame⟩
  | loop => cases (List.forall_mem_cons.mp hbraces).1

end Beneath

/-! ### A step on a line -/

namespace Reading

variable {r r' R : Reading} {t e : Token} {us later behind : List Token} {l n c k k' : Nat}
  {earlier : List Node}

theorem step_of_openBrace (ht : t.lexeme = .openBrace) :
    r.step maxBound maxDepth t later =
      .ok { r with braces := .group :: r.braces, rest := later } := by
  rw [step, ht]

theorem step_of_closeBrace (ht : t.lexeme = .closeBrace) :
    r.step maxBound maxDepth t later = .ok (r.closeBrace later) := by
  rw [step, ht]

theorem step_of_move {d : Direction} (ht : t.lexeme = .move d) :
    r.step maxBound maxDepth t later =
      .ok { r with nodes := .move d t.line :: r.nodes, rest := later } := by
  rw [step, ht]

theorem step_of_ne (hopen : t.lexeme ≠ .openBrace) (hclose : t.lexeme ≠ .closeBrace)
    (hmove : ∀ d, t.lexeme ≠ .move d) (hloop : atLoop (t :: later) = false) :
    r.step maxBound maxDepth t later = .ok { r with rest := later } := by
  unfold step
  split
  · exact absurd ‹_› hopen
  · exact absurd ‹_› hclose
  · exact absurd ‹_› (hmove _)
  · rw [hloop, if_neg Bool.false_ne_true]

/-- **The reading of the whole script has come as far as that of the line alone**, which has
the tokens `us` and the end `e` to come. -/
structure Alongside (l n : Nat) (e : Token) (behind : List Token) (earlier : List Node)
    (r R : Reading) (us : List Token) : Prop where
  tokens : LineTokens l us
  rest_eq : r.rest = us ++ [e]
  rest_eq' : R.rest = us.map (Token.onLine n) ++ behind
  beneath : Beneath earlier r.braces r.nodes R.braces R.nodes

/-- The body of a loop is read alike. -/
theorem exists_alongside_of_enterBody (h : LineTokens l us) (he : e.lexeme = .finish)
    (hbelow : Below n behind) (hb : Beneath earlier r.braces r.nodes R.braces R.nodes)
    (hr : r.enterBody maxDepth c k (us ++ [e]) = .ok r') :
    ∃ R' us', R.enterBody maxDepth c k' (us.map (Token.onLine n) ++ behind) = .ok R' ∧
      Alongside l n e behind earlier r' R' us' := by
  cases us with
  | nil =>
    rw [List.nil_append, enterBody_of_ne (by simp [he]), takeBody, if_pos he] at hr
    cases hr
  | cons t us =>
    rw [List.cons_append] at hr
    rw [List.map_cons, List.cons_append]
    by_cases ho : t.lexeme = .openBrace
    · rw [enterBody_of_openBrace ho] at hr
      split at hr
      · cases hr
      · rename_i hdepth
        cases hr
        rw [enterBody_of_openBrace (by exact ho), hb.openLoops_eq, if_neg hdepth]
        exact ⟨_, us, rfl, h.suffix (List.suffix_cons t us), rfl, rfl, .loop hb (.refl [])⟩
    · rw [enterBody_of_ne ho, takeBody, if_neg (h.ne_finish t List.mem_cons_self)] at hr
      split at hr
      · cases hr
      · rename_i nodes rest htake
        cases hr
        have hinner : (!r.braces.isEmpty) = true → (!R.braces.isEmpty) = true := by
          simpa using hb.ne_nil
        rw [h.line_eq t List.mem_cons_self, ← List.cons_append] at htake
        obtain ⟨us', nodes', hsuf, rfl, hsame, htake'⟩ :=
          takeLine_onLine k' h he hbelow hinner htake
        rw [enterBody_of_ne (by exact ho), takeBody,
          if_neg (by exact h.ne_finish t List.mem_cons_self), Token.line_onLine,
          ← List.cons_append, ← List.map_cons, htake']
        exact ⟨_, us', rfl, h.suffix hsuf, rfl, rfl, hb.cons (hsame.loop c false _ _)⟩

/-- **A step is made alike.** -/
theorem Alongside.exists_step (h : Alongside l n e behind earlier r R (t :: us))
    (he : e.lexeme = .finish) (hbelow : Below n behind)
    (hr : r.step maxBound maxDepth t (us ++ [e]) = .ok r') :
    ∃ R' us', R.step maxBound maxDepth (t.onLine n) (us.map (Token.onLine n) ++ behind) = .ok R' ∧
      Alongside l n e behind earlier r' R' us' := by
  have htokens : LineTokens l us := h.tokens.suffix (List.suffix_cons t us)
  have hloop := atLoop_onLine h.tokens n behind e
  unfold step at hr
  split at hr
  · rename_i ht
    cases hr
    exact ⟨_, us, step_of_openBrace ht, htokens, rfl, rfl, .group h.beneath⟩
  · rename_i ht
    cases hr
    exact ⟨_, us, step_of_closeBrace ht, htokens, rest_closeBrace _ _, rest_closeBrace _ _,
      h.beneath.closeBrace _ _⟩
  · rename_i d ht
    cases hr
    exact ⟨_, us, step_of_move ht, htokens, rfl, rfl, h.beneath.cons (.move d _ _)⟩
  · rename_i hopen hclose hmove
    split at hr
    · rename_i hat
      rw [step_of_atLoop (hloop.trans hat)]
      obtain ⟨hfor, -⟩ := atLoop_cons.mp hat
      unfold enterLoop at hr
      split at hr
      · cases hr
      · rename_i c rest hhead
        obtain ⟨us', hsuf, rfl, hhead'⟩ := takeHeader_onLine hfor he hhead n behind
        rw [enterLoop, hhead']
        dsimp only
        split at hr
        · cases hr
        · rename_i hbound
          rw [if_neg hbound]
          exact exists_alongside_of_enterBody (htokens.suffix hsuf) he hbelow h.beneath hr
    · rename_i hat
      cases hr
      have hat' := hloop.trans (eq_false_of_ne_true hat)
      exact ⟨_, us, step_of_ne hopen hclose hmove hat', htokens, rfl, rfl, h.beneath⟩

/-! ### A line of a script -/

/-- **The reading of the whole script reads a line as the line is read alone.** -/
theorem Alongside.exists_run (h : Alongside l n e behind earlier r R us) (he : e.lexeme = .finish)
    (hbelow : Below n behind) (hr : r.run maxBound maxDepth = .ok r') :
    ∃ R', R.run maxBound maxDepth = R'.run maxBound maxDepth ∧
      Alongside l n e behind earlier r' R' [] := by
  fun_induction Reading.run maxBound maxDepth r generalizing R us with
  | case1 r hrest =>
    rw [h.rest_eq] at hrest
    exact absurd hrest (List.append_ne_nil_of_right_ne_nil us (List.cons_ne_nil e []))
  | case2 r t later hrest ht =>
    cases hr
    cases us with
    | nil => exact ⟨R, rfl, h⟩
    | cons u us =>
      obtain ⟨rfl, -⟩ := List.cons_eq_cons.mp (h.rest_eq.symm.trans hrest)
      exact absurd ht (h.tokens.ne_finish u List.mem_cons_self)
  | case3 => cases hr
  | case4 r t later hrest ht r₁ hstep ih =>
    cases us with
    | nil =>
      obtain ⟨rfl, -⟩ := List.cons_eq_cons.mp (h.rest_eq.symm.trans hrest)
      exact absurd he ht
    | cons u us =>
      obtain ⟨rfl, rfl⟩ := List.cons_eq_cons.mp (h.rest_eq.symm.trans hrest)
      obtain ⟨R₁, us', hstep', h₁⟩ := h.exists_step he hbelow hstep
      obtain ⟨R', hrun, h'⟩ := ih h₁ hr
      exact ⟨R', (run_of_step h.rest_eq' ht hstep').trans hrun, h'⟩

/-- **A line that is accepted alone** is read in the whole script to the same moves, and
leaves no loop open. -/
theorem exists_run_of_line {nodes : List Node} (h : LineTokens l us) (he : e.lexeme = .finish)
    (hline : Tree.ofTokens maxBound maxDepth (us ++ [e]) = .ok nodes) (hbelow : Below n behind)
    (hR : ∀ brace ∈ R.braces, brace = .group)
    (hrest : R.rest = us.map (Token.onLine n) ++ behind) :
    ∃ R' : Reading, R.run maxBound maxDepth = R'.run maxBound maxDepth ∧ R'.rest = behind ∧
      (∀ brace ∈ R'.braces, brace = .group) ∧
      SameMoves R'.nodes.reverse (R.nodes.reverse ++ nodes) := by
  unfold Tree.ofTokens at hline
  split at hline
  · cases hline
  · rename_i r' hrun
    unfold result at hline
    split at hline
    · cases hline
    · rename_i hclosed
      cases hline
      have hstart : Alongside l n e behind R.nodes.reverse { rest := us ++ [e] } R us :=
        ⟨h, rfl, hrest, .top hR (by rw [List.reverse_nil, List.append_nil]; exact .refl _)⟩
      obtain ⟨R', hrun', h'⟩ := hstart.exists_run he hbelow hrun
      have hgroups : ∀ brace ∈ r'.braces, brace = .group := by
        intro brace hbrace
        have hnone := List.findSome?_eq_none_iff.mp hclosed brace hbrace
        cases brace with
        | group => rfl
        | loop => cases hnone
      exact ⟨R', hrun', h'.rest_eq', h'.beneath.groups hgroups⟩

end Reading

end ScriptedMaze.Script
