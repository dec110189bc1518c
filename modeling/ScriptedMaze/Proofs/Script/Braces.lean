import Mathlib.Data.List.Infix
import Mathlib.Data.Set.Card
import ScriptedMaze.Script.Loop

/-!
# Which braces belong together

Braces are matched by counting. An opening brace counts one up and a closing one
counts one down, and a closing brace for which there is nothing to count down
closes nothing (`depth`). A stretch is **balanced** if it counts from zero to
zero, and an opening brace is closed by the first closing one that has a balanced
stretch in between (`Closed`).

`OpenIn before a` says that the brace behind the tokens `a` is still open at the
end of the tokens `before`. Which braces are open changes in two ways only as one
goes on: a brace is opened (`openIn_concat`), or a whole balanced stretch is
passed and changes nothing (`openIn_append`). A closing brace without a partner
leaves everything closed (`not_openIn_concat`).
-/

namespace ScriptedMaze

/-! ### Counting -/

namespace Token

variable {t o x : Token}

/-- How many braces are open behind a token, with `n` open before it; `none` if
the token closes a brace and none is open. -/
def depth (t : Token) (n : Nat) : Option Nat :=
  match t.lexeme, n with
  | .openBrace, n => some (n + 1)
  | .closeBrace, 0 => none
  | .closeBrace, n + 1 => some n
  | _, n => some n

theorem depth_of_open (ho : o.lexeme = .openBrace) (n : Nat) : o.depth n = some (n + 1) := by
  simp [depth, ho]

theorem depth_of_close (hx : x.lexeme = .closeBrace) (n : Nat) :
    x.depth (n + 1) = some n := by
  simp [depth, hx]

theorem depth_zero_of_close (hx : x.lexeme = .closeBrace) : x.depth 0 = none := by
  simp [depth, hx]

theorem depth_of_ne (ho : t.lexeme ≠ .openBrace) (hx : t.lexeme ≠ .closeBrace) (n : Nat) :
    t.depth n = some n := by
  unfold depth
  split
  · exact absurd ‹_› ho
  · exact absurd ‹_› hx
  · exact absurd ‹_› hx
  · rfl

end Token

namespace Script

variable {t o x : Token} {a b c m ts : List Token} {n k : Nat}

/-- How many braces are open behind a stretch. -/
def depth (n : Nat) (ts : List Token) : Option Nat :=
  ts.foldlM (fun n t => t.depth n) n

@[simp] theorem depth_nil (n : Nat) : depth n [] = some n := rfl

@[simp] theorem depth_cons (n : Nat) (t : Token) (ts : List Token) :
    depth n (t :: ts) = (t.depth n).bind (depth · ts) := rfl

@[simp] theorem depth_append (n : Nat) (a b : List Token) :
    depth n (a ++ b) = (depth n a).bind (depth · b) :=
  List.foldlM_append

/-- What is counted does not depend on the braces that stay open. -/
theorem depth_add (h : depth n ts = some k) (j : Nat) : depth (n + j) ts = some (k + j) := by
  induction ts generalizing n with
  | nil =>
    cases h
    rfl
  | cons t ts ih =>
    rw [depth_cons] at h ⊢
    by_cases ho : t.lexeme = .openBrace
    · rw [Token.depth_of_open ho] at h ⊢
      rw [Option.bind_some, Nat.add_right_comm]
      exact ih h
    · by_cases hx : t.lexeme = .closeBrace
      · cases n with
        | zero =>
          rw [Token.depth_zero_of_close hx] at h
          cases h
        | succ n =>
          rw [Nat.add_right_comm, Token.depth_of_close hx, Option.bind_some]
          rw [Token.depth_of_close hx, Option.bind_some] at h
          exact ih h
      · rw [Token.depth_of_ne ho hx] at h ⊢
        exact ih h

/-! ### Balanced stretches -/

/-- **A stretch in which every brace has its partner.** -/
def Balanced (ts : List Token) : Prop := depth 0 ts = some 0

instance (ts : List Token) : Decidable (Balanced ts) :=
  inferInstanceAs (Decidable (depth 0 ts = some 0))

namespace Balanced

protected theorem nil : Balanced [] := rfl

theorem depth_eq (h : Balanced ts) (n : Nat) : depth n ts = some n := by
  have hadd := depth_add h n
  rwa [Nat.zero_add] at hadd

theorem append (ha : Balanced a) (hb : Balanced b) : Balanced (a ++ b) := by
  rw [Balanced, depth_append, ha, Option.bind_some, hb]

theorem block (ho : o.lexeme = .openBrace) (hc : Balanced c) (hx : x.lexeme = .closeBrace) :
    Balanced (o :: c ++ [x]) := by
  rw [Balanced, List.cons_append, depth_cons, Token.depth_of_open ho, Option.bind_some,
    depth_append, hc.depth_eq, Option.bind_some, depth_cons, Token.depth_of_close hx]
  rfl

theorem of_no_braces (h : ∀ t ∈ ts, t.lexeme ≠ .openBrace ∧ t.lexeme ≠ .closeBrace) :
    Balanced ts := by
  induction ts with
  | nil => exact Balanced.nil
  | cons t ts ih =>
    obtain ⟨ho, hx⟩ := h t List.mem_cons_self
    rw [Balanced, depth_cons, Token.depth_of_ne ho hx, Option.bind_some]
    exact ih fun u hu => h u (List.mem_cons_of_mem _ hu)

end Balanced

/-! ### Cutting at a token

Where two stretches are cut at one token, that token lies in the second of them or
in the first. -/

theorem append_eq_append_cons (h : b ++ m = a ++ o :: c) :
    (∃ d, a = b ++ d ∧ m = d ++ o :: c) ∨ ∃ d, b = a ++ o :: d ∧ c = d ++ m := by
  rcases List.append_eq_append_iff.mp h with ⟨d, hd, hm⟩ | ⟨d, hd, hm⟩
  · exact Or.inl ⟨d, hd, hm⟩
  · cases d with
    | nil => exact Or.inl ⟨[], by simpa using hd.symm, by simpa using hm.symm⟩
    | cons u d =>
      obtain ⟨rfl, hc⟩ := List.cons_eq_cons.mp hm
      exact Or.inr ⟨d, hd, hc⟩

theorem concat_eq_append_cons (h : b ++ [t] = a ++ o :: c) :
    (c = [] ∧ b = a ∧ t = o) ∨ ∃ d, c = d ++ [t] ∧ b = a ++ o :: d := by
  rcases append_eq_append_cons h with ⟨d, rfl, hd⟩ | ⟨d, hb, hc⟩
  · rcases List.singleton_eq_append_iff.mp hd with ⟨rfl, ht⟩ | ⟨-, hnil⟩
    · obtain ⟨rfl, rfl⟩ := List.cons_eq_cons.mp ht
      exact Or.inl ⟨rfl, (List.append_nil b).symm, rfl⟩
    · cases hnil
  · exact Or.inr ⟨d, hc, hb⟩

/-! ### Closed braces -/

/-- **What follows an opening brace closes it**: there is a closing brace with a
balanced stretch in between. -/
def Closed (c : List Token) : Prop :=
  ∃ inside x rest, c = inside ++ x :: rest ∧ Balanced inside ∧ x.lexeme = .closeBrace

theorem not_closed_nil : ¬Closed [] := by
  rintro ⟨inside, x, rest, h, -⟩
  simp at h

theorem Closed.append_right (h : Closed c) (m : List Token) : Closed (c ++ m) := by
  obtain ⟨inside, x, rest, rfl, hin, hx⟩ := h
  exact ⟨inside, x, rest ++ m, by simp, hin, hx⟩

/-- A stretch that counts down to less than it began with closes the brace before
it. -/
theorem closed_of_depth {j : Nat} (h : depth (j + n + 1) c = some k) (hk : k ≤ n) :
    ∃ inside x rest, c = inside ++ x :: rest ∧ depth j inside = some 0 ∧
      x.lexeme = .closeBrace := by
  induction c generalizing j with
  | nil =>
    rw [depth_nil, Option.some_inj] at h
    omega
  | cons t c ih =>
    rw [depth_cons] at h
    by_cases ho : t.lexeme = .openBrace
    · -- one more brace is to be closed before the one that counts
      rw [Token.depth_of_open ho, Option.bind_some, Nat.add_right_comm j n 1] at h
      obtain ⟨inside, x, rest, rfl, hin, hx⟩ := ih h
      refine ⟨t :: inside, x, rest, rfl, ?_, hx⟩
      rw [depth_cons, Token.depth_of_open ho, Option.bind_some, hin]
    · by_cases hx : t.lexeme = .closeBrace
      · cases j with
        | zero =>
          -- nothing is open that was opened here: this is the partner
          exact ⟨[], t, c, rfl, rfl, hx⟩
        | succ j =>
          rw [Token.depth_of_close hx, Option.bind_some, Nat.add_right_comm j 1 n] at h
          obtain ⟨inside, x, rest, rfl, hin, hx'⟩ := ih h
          refine ⟨t :: inside, x, rest, rfl, ?_, hx'⟩
          rw [depth_cons, Token.depth_of_close hx, Option.bind_some, hin]
      · rw [Token.depth_of_ne ho hx, Option.bind_some] at h
        obtain ⟨inside, x, rest, rfl, hin, hx'⟩ := ih h
        refine ⟨t :: inside, x, rest, rfl, ?_, hx'⟩
        rw [depth_cons, Token.depth_of_ne ho hx, Option.bind_some, hin]

/-- A brace in a balanced stretch is closed in it. -/
theorem Balanced.closed (h : Balanced (a ++ o :: c)) (ho : o.lexeme = .openBrace) : Closed c := by
  rw [Balanced, depth_append] at h
  obtain ⟨n, -, hn⟩ := Option.bind_eq_some_iff.mp h
  rw [depth_cons, Token.depth_of_open ho, Option.bind_some] at hn
  exact closed_of_depth (j := 0) (by rwa [Nat.zero_add]) (Nat.zero_le n)

/-- A balanced stretch closes nothing before it. -/
theorem closed_append (hm : Balanced m) : Closed (c ++ m) ↔ Closed c := by
  refine ⟨?_, fun h => h.append_right m⟩
  rintro ⟨inside, x, rest, heq, hin, hx⟩
  rcases append_eq_append_cons heq with ⟨d, rfl, rfl⟩ | ⟨d, rfl, -⟩
  · -- the closing brace would lie in `m`, where it has no partner
    rw [Balanced, depth_append] at hin hm
    obtain ⟨j, -, hj⟩ := Option.bind_eq_some_iff.mp hin
    obtain ⟨i, hi, hrest⟩ := Option.bind_eq_some_iff.mp hm
    have hadd := depth_add hi j
    rw [Nat.zero_add, hj, Option.some_inj] at hadd
    obtain rfl : i = 0 := by omega
    rw [depth_cons, Token.depth_zero_of_close hx] at hrest
    cases hrest
  · exact ⟨inside, x, d, rfl, hin, hx⟩

theorem closed_concat (ht : t.lexeme ≠ .closeBrace) : Closed (c ++ [t]) ↔ Closed c := by
  refine ⟨?_, fun h => h.append_right [t]⟩
  rintro ⟨inside, x, rest, heq, hin, hx⟩
  rcases concat_eq_append_cons heq with ⟨-, -, rfl⟩ | ⟨d, -, rfl⟩
  · exact absurd hx ht
  · exact ⟨inside, x, d, rfl, hin, hx⟩

/-! ### Open braces -/

/-- **The brace behind the tokens `a` is open** at the end of the tokens `before`. -/
def OpenIn (before a : List Token) : Prop :=
  ∃ o c, before = a ++ o :: c ∧ o.lexeme = .openBrace ∧ ¬Closed c

theorem OpenIn.length_lt (h : OpenIn b a) : a.length < b.length := by
  obtain ⟨o, c, rfl, -⟩ := h
  rw [List.length_append, List.length_cons]
  omega

theorem OpenIn.isPrefix (h : OpenIn b a) : a <+: b := by
  obtain ⟨o, c, rfl, -⟩ := h
  exact List.prefix_append a _

theorem not_openIn_nil (a : List Token) : ¬OpenIn [] a :=
  fun h => absurd h.length_lt (Nat.not_lt_zero _)

theorem finite_openIn (b : List Token) : {a | OpenIn b a}.Finite :=
  b.inits.finite_toSet.subset fun _ h => (List.mem_inits _ _).mpr h.isPrefix

/-- **Passing a balanced stretch leaves open what was open.** -/
theorem openIn_append (hm : Balanced m) : OpenIn (b ++ m) a ↔ OpenIn b a := by
  constructor
  · rintro ⟨o, c, heq, ho, hc⟩
    rcases append_eq_append_cons heq with ⟨d, rfl, rfl⟩ | ⟨d, rfl, rfl⟩
    · exact absurd (hm.closed ho) hc
    · exact ⟨o, d, rfl, ho, fun h => hc (h.append_right m)⟩
  · rintro ⟨o, c, rfl, ho, hc⟩
    exact ⟨o, c ++ m, by simp, ho, fun h => hc ((closed_append hm).mp h)⟩

/-- **Opening a brace** opens that brace and leaves open what was open. -/
theorem openIn_concat (ho : o.lexeme = .openBrace) :
    OpenIn (b ++ [o]) a ↔ a = b ∨ OpenIn b a := by
  constructor
  · rintro ⟨u, c, heq, hu, hc⟩
    rcases concat_eq_append_cons heq with ⟨-, rfl, -⟩ | ⟨d, rfl, rfl⟩
    · exact Or.inl rfl
    · exact Or.inr ⟨u, d, rfl, hu, fun h => hc (h.append_right [o])⟩
  · rintro (rfl | ⟨u, c, rfl, hu, hc⟩)
    · exact ⟨o, [], rfl, ho, not_closed_nil⟩
    · have hne : o.lexeme ≠ .closeBrace := by rw [ho]; decide
      exact ⟨u, c ++ [o], by simp, hu, fun h => hc ((closed_concat hne).mp h)⟩

/-- Where no brace is open, a token that opens none leaves it so. -/
theorem not_openIn_concat (hb : ∀ a, ¬OpenIn b a) (ht : t.lexeme ≠ .openBrace) (a : List Token) :
    ¬OpenIn (b ++ [t]) a := by
  rintro ⟨o, c, heq, ho, hc⟩
  rcases concat_eq_append_cons heq with ⟨-, -, rfl⟩ | ⟨d, rfl, rfl⟩
  · exact ht ho
  · exact hb a ⟨o, d, rfl, ho, fun h => hc (h.append_right [t])⟩

end Script

end ScriptedMaze
