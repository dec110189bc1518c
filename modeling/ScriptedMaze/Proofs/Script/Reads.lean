import ScriptedMaze.Proofs.Script.Parts
import ScriptedMaze.Script.Tree

/-!
# What a reading has read

`Reads stretch behind nodes` says in words of its own that the tokens of a stretch
are those of the nodes: a move is a leaf, a loop has a run or a block for its body,
and whatever is neither is passed over, braces that only group among them. The
tokens behind the stretch matter as far as a loop may be told by one of them.
Stretches that follow each other are read as one (`Reads.append`).

A reading under way has not come to the end of the blocks that are open. What it
has read falls into one stretch per open brace (`Pending`): before the first of
them every brace is closed, and behind each of them comes a balanced stretch. A
balanced stretch that is read next belongs to the innermost block
(`Pending.extend`), a closing brace ends that block (`Pending.close`), and where no
loop is open everything has been read (`Pending.reads`).

The braces on the stack are the braces that are open, and a brace is on the stack
as a loop's exactly if a loop's opening stands before it: what follows a stretch
that was read is never such a brace (`Reads.not_endsWithOpening`), and so the loops
on the stack can be counted in the tokens (`Pending.loopsOpenIn_eq`).
-/

namespace ScriptedMaze.Script

open Loop

/-! ### Stretches -/

/-- **The tokens of a stretch are those of the nodes**, when `behind` follows. -/
inductive Reads : (stretch behind : List Token) → List Node → Prop
  | nil {behind : List Token} : Reads [] behind []
  /-- A move is a leaf. -/
  | move {t : Token} {d : Direction} {ts behind : List Token} {nodes : List Node} :
      t.lexeme = .move d → Reads ts behind nodes → Reads (t :: ts) behind (.move d t.line :: nodes)
  /-- A token at which neither a move nor a loop begins is passed over. -/
  | skip {t : Token} {ts behind : List Token} {nodes : List Node} :
      moveNode? t = none → atLoop (t :: (ts ++ behind)) = false → Reads ts behind nodes →
      Reads (t :: ts) behind nodes
  /-- A loop without braces holds the moves of its run. -/
  | run {n : Nat} {f : Token} {head inner ts behind : List Token} {nodes : List Node} :
      IsOpening n (f :: head) → IsBody inner (ts ++ behind) → Reads ts behind nodes →
      Reads (f :: head ++ (inner ++ ts)) behind
        (.loop n (inner.filterMap moveNode?) false f.line :: nodes)
  /-- A loop with braces holds what is between them. -/
  | block {n : Nat} {f o x : Token} {head inside ts behind : List Token}
      {body nodes : List Node} :
      IsOpening n (f :: head) → o.lexeme = .openBrace → Balanced inside →
      x.lexeme = .closeBrace → Reads inside (x :: (ts ++ behind)) body → Reads ts behind nodes →
      Reads (f :: head ++ o :: (inside ++ x :: ts)) behind (.loop n body true f.line :: nodes)

variable {t o x f : Token} {a b c m ts head inside before rest behind later taken : List Token}
  {nodes new body : List Node} {n : Nat}

namespace Reads

/-- **Stretches that follow each other are read as one.** -/
theorem append (ha : Reads a (b ++ behind) nodes) (hb : Reads b behind new) :
    Reads (a ++ b) behind (nodes ++ new) := by
  generalize hall : b ++ behind = all at ha
  induction ha with
  | nil => exact hb
  | move hd _ ih => exact .move hd (ih hall)
  | skip ht hloop _ ih =>
    subst hall
    refine .skip ht ?_ (ih rfl)
    rwa [List.append_eq, List.append_assoc]
  | run ho hbody _ ih =>
    subst hall
    have hrun := Reads.run ho (by rwa [List.append_assoc]) (ih rfl)
    simpa [List.append_assoc] using hrun
  | block ho hopen hbal hx hin _ _ ih =>
    subst hall
    have hblock := Reads.block ho hopen hbal hx (by rwa [List.append_assoc]) (ih rfl)
    simpa [List.append_assoc] using hblock

/-- A token that is passed over. -/
theorem skip_one (ht : moveNode? t = none) (hloop : atLoop (t :: behind) = false) :
    Reads [t] behind [] :=
  .skip ht hloop .nil

end Reads

/-! ### Braces of loops -/

/-- The opening of a loop stands at the end. -/
def EndsWithOpening (ts : List Token) : Prop := ∃ n a, IsOpening n a ∧ a <:+ ts

/-- Only what is behind a brace can be an opening. -/
theorem EndsWithOpening.behind_brace (h : EndsWithOpening (a ++ o :: c))
    (ho : o.lexeme = .openBrace ∨ o.lexeme = .closeBrace) : EndsWithOpening c := by
  obtain ⟨n, b, hb, hsuf⟩ := h
  have hnot : o ∉ b := fun hmem => ho.elim (hb.ne_brace hmem).1 (hb.ne_brace hmem).2
  refine ⟨n, b, hb, ?_⟩
  rcases List.suffix_or_suffix_of_suffix hsuf (List.suffix_append a (o :: c)) with hsuf | hsuf
  · rcases List.suffix_cons_iff.mp hsuf with rfl | hsuf
    · exact absurd List.mem_cons_self hnot
    · exact hsuf
  · exact absurd (hsuf.subset List.mem_cons_self) hnot

/-- A brace that follows what was read as a whole is not a loop's. -/
theorem Reads.not_endsWithOpening (h : Reads ts (o :: rest) nodes) (ho : o.lexeme = .openBrace) :
    ¬EndsWithOpening ts := by
  generalize hb : o :: rest = behind at h
  induction h with
  | nil =>
    rintro ⟨n, a, ha, hsuf⟩
    have hlen := ha.length_eq
    rw [List.suffix_nil.mp hsuf] at hlen
    cases hlen
  | @move t d ts behind nodes hd _ ih =>
    rintro ⟨n, a, ha, hsuf⟩
    have hfree : LoopFree [t] (ts ++ behind) := loopFree_of_ne_for (by simp [hd])
    exact ih hb ⟨n, a, ha, hfree.suffix ha hsuf⟩
  | @skip t ts behind nodes ht hloop _ ih =>
    rintro ⟨n, a, ha, hsuf⟩
    have hfree : LoopFree [t] (ts ++ behind) := ⟨hloop, trivial⟩
    exact ih hb ⟨n, a, ha, hfree.suffix ha hsuf⟩
  | @run n f head inner ts behind nodes hopening hbody _ ih =>
    rintro ⟨n', a, ha, hsuf⟩
    rcases List.suffix_cons_iff.mp hsuf with heq | hsuf
    · -- then there is no run, and the brace would be that of the loop
      have happ : (f :: head) ++ (inner ++ ts) = a ++ [] := by rw [List.append_nil, heq]; rfl
      obtain ⟨-, -, hnil⟩ := hopening.unique ha happ
      obtain ⟨rfl, rfl⟩ := List.append_eq_nil_iff.mp hnil
      subst hb
      exact hbody.ne_openBrace ho
    · have hfree : LoopFree (head ++ inner) (ts ++ behind) :=
        loopFree_append.mpr ⟨loopFree_of_ne_for fun _ => hopening.ne_for, hbody.loopFree⟩
      rw [List.append_eq, ← List.append_assoc] at hsuf
      exact ih hb ⟨n', a, ha, hfree.suffix ha hsuf⟩
  | @block n f o' x head inside ts behind body nodes _ _ _ hx _ _ _ ih =>
    intro hends
    rw [← List.cons_append, ← List.append_assoc] at hends
    exact ih hb (hends.behind_brace (Or.inr hx))

/-- How many braces of loops are open at the end of the tokens. -/
noncomputable def loopsOpenIn (before : List Token) : Nat :=
  {a | OpenIn before a ∧ EndsWithOpening a}.ncard

theorem finite_loopsOpenIn (b : List Token) : {a | OpenIn b a ∧ EndsWithOpening a}.Finite :=
  (finite_openIn b).subset fun _ h => h.1

theorem loopsOpenIn_eq_zero : loopsOpenIn b = 0 ↔ ∀ a, OpenIn b a → ¬EndsWithOpening a := by
  rw [loopsOpenIn, Set.ncard_eq_zero (finite_loopsOpenIn b), Set.eq_empty_iff_forall_notMem]
  simp only [Set.mem_ofPred_eq, not_and]

theorem loopsOpenIn_append (hm : Balanced m) : loopsOpenIn (b ++ m) = loopsOpenIn b := by
  simp only [loopsOpenIn, openIn_append hm]

/-- A brace that only groups is no loop's. -/
theorem loopsOpenIn_concat_of_not (ho : o.lexeme = .openBrace) (hb : ¬EndsWithOpening b) :
    loopsOpenIn (b ++ [o]) = loopsOpenIn b := by
  have hset : {a | OpenIn (b ++ [o]) a ∧ EndsWithOpening a} =
      {a | OpenIn b a ∧ EndsWithOpening a} := by
    ext a
    rw [Set.mem_ofPred_eq, Set.mem_ofPred_eq, openIn_concat ho]
    constructor
    · rintro ⟨rfl | hopen, hends⟩
      · exact absurd hends hb
      · exact ⟨hopen, hends⟩
    · exact fun ⟨hopen, hends⟩ => ⟨Or.inr hopen, hends⟩
  rw [loopsOpenIn, hset, loopsOpenIn]

/-- A brace behind the opening of a loop is one more. -/
theorem loopsOpenIn_concat (ho : o.lexeme = .openBrace) (hb : EndsWithOpening b) :
    loopsOpenIn (b ++ [o]) = loopsOpenIn b + 1 := by
  have hset : {a | OpenIn (b ++ [o]) a ∧ EndsWithOpening a} =
      insert b {a | OpenIn b a ∧ EndsWithOpening a} := by
    ext a
    rw [Set.mem_insert_iff, Set.mem_ofPred_eq, Set.mem_ofPred_eq, openIn_concat ho]
    constructor
    · rintro ⟨rfl | hopen, hends⟩
      · exact Or.inl rfl
      · exact Or.inr ⟨hopen, hends⟩
    · rintro (rfl | ⟨hopen, hends⟩)
      · exact ⟨Or.inl rfl, hb⟩
      · exact ⟨Or.inr hopen, hends⟩
  have hnot : b ∉ {a | OpenIn b a ∧ EndsWithOpening a} :=
    fun h => absurd h.1.length_lt (Nat.lt_irrefl _)
  rw [loopsOpenIn, hset, Set.ncard_insert_of_notMem hnot (finite_loopsOpenIn b), loopsOpenIn]

/-! ### Readings under way -/

/-- **What a reading has read**, brace by brace: the braces that are open, the
nodes of the innermost block, the latest first, the tokens before and the tokens to
come. -/
inductive Pending : List OpenBrace → List Node → (before rest : List Token) → Prop
  /-- No brace is open. -/
  | top {nodes : List Node} {before rest : List Token} :
      (∀ a, ¬OpenIn before a) → Reads before rest nodes.reverse → Pending [] nodes before rest
  /-- The innermost brace only groups: its nodes are those of the block around it. -/
  | group {outer : List OpenBrace} {nodes new : List Node} {a c rest : List Token} {o : Token} :
      Pending outer nodes a (o :: (c ++ rest)) → o.lexeme = .openBrace → ¬EndsWithOpening a →
      Balanced c → Reads (o :: c) rest new.reverse →
      Pending (.group :: outer) (new ++ nodes) (a ++ o :: c) rest
  /-- The innermost brace is that of a loop, and its nodes are the loop's. -/
  | loop {outer : List OpenBrace} {nodes new : List Node} {n : Nat} {f o : Token}
      {a head c rest : List Token} :
      Pending outer nodes a (f :: head ++ o :: (c ++ rest)) → IsOpening n (f :: head) →
      o.lexeme = .openBrace → Balanced c → Reads c rest new.reverse →
      Pending (.loop n f.line nodes :: outer) new (a ++ (f :: head ++ o :: c)) rest

namespace Pending

variable {braces : List OpenBrace}

/-- **A balanced stretch that is read adds its nodes** to those of the innermost
block. -/
theorem extend (h : Pending braces nodes before (m ++ rest)) (new : List Node) (hm : Balanced m)
    (hr : Reads m rest new.reverse) : Pending braces (new ++ nodes) (before ++ m) rest := by
  cases h with
  | top hopen hreads =>
    refine .top (fun a ha => hopen a ((openIn_append hm).mp ha)) ?_
    rw [List.reverse_append]
    exact hreads.append hr
  | @group outer nodes new' a c _ o hp ho hends hc hreads =>
    have hnew : Reads (o :: (c ++ m)) rest (new ++ new').reverse := by
      rw [List.reverse_append]
      exact hreads.append hr
    rw [← List.append_assoc, List.append_assoc a, List.cons_append]
    refine .group ?_ ho hends (hc.append hm) hnew
    rwa [List.append_assoc]
  | @loop outer earlier _ n f o a head c _ hp hopening ho hc hreads =>
    have hnew : Reads (c ++ m) rest (new ++ nodes).reverse := by
      rw [List.reverse_append]
      exact hreads.append hr
    have hp' : Pending outer earlier a (f :: head ++ o :: (c ++ m ++ rest)) := by
      rwa [List.append_assoc c]
    rw [List.append_assoc a, List.append_assoc (f :: head)]
    exact .loop hp' hopening ho (hc.append hm) hnew

/-- A brace that comes next is not a loop's. -/
theorem not_endsWithOpening (h : Pending braces nodes before (o :: rest))
    (ho : o.lexeme = .openBrace) : ¬EndsWithOpening before := by
  cases h with
  | top _ hreads => exact hreads.not_endsWithOpening ho
  | group _ ho' _ _ hreads =>
    -- an opening cannot reach over the innermost brace
    intro hends
    refine hreads.not_endsWithOpening ho ?_
    obtain ⟨n, a, ha, hsuf⟩ := hends.behind_brace (Or.inl ho')
    exact ⟨n, a, ha, hsuf.trans (List.suffix_cons _ _)⟩
  | loop _ _ ho' _ hreads =>
    intro hends
    rw [← List.append_assoc] at hends
    exact hreads.not_endsWithOpening ho (hends.behind_brace (Or.inl ho'))

/-- **A closing brace** ends the innermost block, or is passed over where no brace is
open. -/
theorem close {r : Reading} (h : Pending r.braces r.nodes before (x :: rest))
    (hx : x.lexeme = .closeBrace) :
    Pending (r.closeBrace rest).braces (r.closeBrace rest).nodes (before ++ [x]) rest := by
  have hskip : Reads [x] rest [] :=
    .skip_one (moveNode?_of_ne fun d => by simp [hx]) (atLoop_eq_false (by simp [hx]))
  obtain ⟨braces, nodes, rest'⟩ := r
  cases h with
  | top hopen hreads =>
    -- there is nothing to close
    refine .top (not_openIn_concat hopen (by simp [hx])) ?_
    have happ := hreads.append hskip
    rwa [List.append_nil] at happ
  | @group outer nodes new a c _ o hp ho _ hc hreads =>
    -- the block is part of the block around it
    have happ : Reads (o :: c ++ [x]) rest (new.reverse ++ []) := hreads.append hskip
    rw [List.append_nil] at happ
    have hp' : Pending outer nodes a (o :: c ++ [x] ++ rest) := by
      rwa [List.append_assoc, List.singleton_append]
    rw [List.append_assoc]
    exact hp'.extend new (.block ho hc hx) happ
  | @loop outer earlier _ n f o a head c _ hp hopening ho hc hreads =>
    -- the loop is a node of the block around it
    have hblock : Reads (f :: head ++ o :: (c ++ [x])) rest [.loop n nodes.reverse true f.line] :=
      .block hopening ho hc hx hreads .nil
    have hp' : Pending outer earlier a (f :: head ++ o :: (c ++ [x]) ++ rest) := by
      simpa using hp
    rw [List.append_assoc, List.append_assoc]
    exact hp'.extend [.loop n nodes.reverse true f.line]
      (hopening.balanced.append (.block ho hc hx)) hblock

/-- Without a loop that is open, everything has been read. -/
theorem reads (h : Pending braces nodes before rest)
    (hb : braces.findSome? OpenBrace.loopLine? = none) : Reads before rest nodes.reverse := by
  induction h with
  | top _ hreads => exact hreads
  | group _ _ _ _ hreads ih =>
    rw [List.reverse_append]
    exact (ih hb).append hreads
  | loop => cases hb

/-- **Some brace is open exactly if one is on the stack.** -/
theorem exists_openIn_iff (h : Pending braces nodes before rest) :
    (∃ a, OpenIn before a) ↔ braces ≠ [] := by
  cases h with
  | top hopen _ => simp [hopen]
  | @group _ _ _ a c _ o _ ho _ hc _ =>
    rw [List.append_cons]
    exact iff_of_true ⟨a, (openIn_append hc).mpr ((openIn_concat ho).mpr (Or.inl rfl))⟩
      (List.cons_ne_nil _ _)
  | @loop _ _ _ n f o a head c _ _ hopening ho hc _ =>
    rw [← List.append_assoc, List.append_cons]
    exact iff_of_true ⟨_, (openIn_append hc).mpr ((openIn_concat ho).mpr (Or.inl rfl))⟩
      (List.cons_ne_nil _ _)

/-- **As many loops are open as are on the stack.** -/
theorem loopsOpenIn_eq (h : Pending braces nodes before rest) :
    loopsOpenIn before = (braces.filterMap OpenBrace.loopLine?).length := by
  induction h with
  | top hopen _ => exact loopsOpenIn_eq_zero.mpr fun a ha => absurd ha (hopen a)
  | @group _ _ _ a c _ o _ ho hends hc _ ih =>
    rw [List.append_cons, loopsOpenIn_append hc, loopsOpenIn_concat_of_not ho hends, ih]
    rfl
  | @loop _ _ _ n f o a head c _ _ hopening ho hc _ ih =>
    have hends : EndsWithOpening (a ++ f :: head) :=
      ⟨n, f :: head, hopening, List.suffix_append a _⟩
    rw [← List.append_assoc, List.append_cons, loopsOpenIn_append hc, loopsOpenIn_concat ho hends,
      loopsOpenIn_append hopening.balanced, ih]
    rfl

end Pending

end ScriptedMaze.Script
