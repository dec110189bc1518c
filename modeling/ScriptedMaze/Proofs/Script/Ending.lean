import Mathlib.Data.List.Basic
import ScriptedMaze.Script.Commands

/-!
# The end of a script

The token that stands for the end is no part of a text: it comes behind all
others and only there (`ended_tokens`). So a reading that stops at it has come to
the last token.
-/

namespace ScriptedMaze

namespace Lexeme

theorem ofMark_ne_finish (c : Char) : ofMark c ≠ .finish := by
  unfold ofMark
  split <;> simp

/-- The end of a script does not stand in its text. -/
theorem lexeme_take_ne_finish (c : Char) (r : List Char) : (take c r).lexeme ≠ some .finish := by
  unfold take
  split
  · simp
  · split
    · simp
    · split
      · simp
      · split
        · simp
        · split
          · simp
          · split
            · simp
            · simpa using ofMark_ne_finish c

end Lexeme

theorem Token.scanFrom_eq (p : Place) (cs : List Char) :
    ∃ body e, Token.scanFrom p cs = body ++ [e] ∧ e.lexeme = .finish ∧
      ∀ t ∈ body, t.lexeme ≠ .finish := by
  fun_induction Token.scanFrom p cs with
  | case1 p => exact ⟨[], _, rfl, rfl, by simp⟩
  | case2 p c r cut rest k hk ih =>
    obtain ⟨body, e, heq, he, hbody⟩ := ih
    refine ⟨.placed k p :: body, e, congrArg _ heq, he, ?_⟩
    intro t ht
    rcases List.mem_cons.mp ht with rfl | ht
    · intro hfin
      exact Lexeme.lexeme_take_ne_finish c r (hk.trans (congrArg some hfin))
    · exact hbody t ht
  | case3 p c r cut rest hk ih => exact ih

namespace Script

variable {ts s rest : List Token}

/-- The end of the script comes last, if it comes. -/
def Ended (ts : List Token) : Prop :=
  ∀ t rest, t :: rest <:+ ts → t.lexeme = .finish → rest = []

theorem Ended.suffix (h : Ended ts) (hs : s <:+ ts) : Ended s :=
  fun t rest hsuf hfin => h t rest (hsuf.trans hs) hfin

theorem ended_concat (h : ∀ t ∈ ts, t.lexeme ≠ .finish) (e : Token) : Ended (ts ++ [e]) := by
  rintro t rest ⟨a, heq⟩ hfin
  rcases List.eq_nil_or_concat rest with rfl | ⟨rest, u, rfl⟩
  · rfl
  · rw [List.concat_eq_append, ← List.cons_append, ← List.append_assoc] at heq
    have hmem : t ∈ ts := (List.append_inj' heq rfl).1 ▸
      List.mem_append_right a List.mem_cons_self
    exact absurd hfin (h t hmem)

theorem ended_tokens (source : String) : Ended (tokens source) := by
  obtain ⟨body, e, heq, -, hbody⟩ := Token.scanFrom_eq {} (Text.unifyLineEnds source.toList)
  rw [tokens, heq]
  exact ended_concat hbody e

/-- What is left at the end of a script is its end. -/
theorem Ended.eq_nil_or (h : Ended ts) (hs : rest <:+ ts)
    (hfin : ∀ t ∈ rest.head?, t.lexeme = .finish) :
    rest = [] ∨ ∃ e : Token, rest = [e] ∧ e.lexeme = .finish := by
  cases rest with
  | nil => exact Or.inl rfl
  | cons e rest =>
    have he : e.lexeme = .finish := hfin e rfl
    exact Or.inr ⟨e, by rw [h e rest hs he], he⟩

end Script

end ScriptedMaze
