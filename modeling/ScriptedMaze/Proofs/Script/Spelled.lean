import Mathlib.Tactic.IntervalCases
import ScriptedMaze.Proofs.Script.Parts
import ScriptedMaze.Proofs.Script.Lines
import ScriptedMaze.Route.Listing

/-!
# The lines of a listing

A line of a listing is a move, or the opening of a loop and a move behind it
(`Route.lineLexemes`, `Route.scan_scriptLine`). The number of rounds is spelled in as many
digits as it takes, and the text around it is the same for all numbers. So the text in front of
the digits is cut step by step, by evaluation (`Lexeme.scan_eq_cutOff`), the digits are one
number whatever they are (`Lexeme.scan_digits`), and so is what stands behind them.

A line is a line in the sense of `IsLine`, there is nothing forbidden in it, and it is not
blank. The digits are again what has to be looked at: no digit is a line end or a slash, and
digits are no forbidden word.
-/

namespace ScriptedMaze

variable {c : Char} {r cs digits rest : List Char} {d : Direction} {n : Nat}

/-! ### Lexemes without their places -/

namespace Lexeme

/-- The lexemes of a text, wherever it stands. -/
def scan (cs : List Char) : List Lexeme :=
  (Token.scanFrom {} cs).map Token.lexeme

theorem map_lexeme_scanFrom (p : Place) (cs : List Char) :
    (Token.scanFrom p cs).map Token.lexeme = scan cs := by
  unfold scan
  generalize ({} : Place) = q
  induction cs using take_induction generalizing p q with
  | nil =>
    rw [Token.scanFrom, Token.scanFrom]
    rfl
  | cons c r ih _ =>
    rw [Token.scanFrom_cons, Token.scanFrom_cons, List.map_append, List.map_append, ih _]
    congr 1
    cases (take c r).lexeme <;> rfl

theorem scan_nil : scan [] = [.finish] := by
  rw [scan, Token.scanFrom]
  rfl

theorem scan_cons (c : Char) (r : List Char) :
    scan (c :: r) = (take c r).lexeme.toList ++ scan (take c r).rest := by
  rw [scan, Token.scanFrom_cons, List.map_append, map_lexeme_scanFrom]
  congr 1
  cases (take c r).lexeme <;> rfl

/-- The lexemes among the first `n` things that are taken from a text, and the rest. -/
def cutOff : (n : Nat) → List Char → List Lexeme × List Char
  | 0, cs => ([], cs)
  | _ + 1, [] => ([], [])
  | n + 1, c :: r =>
    ((take c r).lexeme.toList ++ (cutOff n (take c r).rest).1, (cutOff n (take c r).rest).2)

/-- What is cut off a text comes first. -/
theorem scan_eq_cutOff (n : Nat) (cs : List Char) :
    scan cs = (cutOff n cs).1 ++ scan (cutOff n cs).2 := by
  fun_induction cutOff n cs with
  | case1 => rfl
  | case2 => rfl
  | case3 n c r ih => rw [scan_cons, ih, List.append_assoc]

/-- A blank leaves nothing. -/
theorem scan_cons_of_isBlank (hc : Text.isBlank c = true) (r : List Char) :
    scan (c :: r) = scan r := by
  rw [scan, Token.scanFrom_cons_of_isBlank hc, map_lexeme_scanFrom]

/-- The digits of ASCII one by one. -/
theorem mem_of_isDigit (h : c.isDigit = true) :
    c ∈ ['0', '1', '2', '3', '4', '5', '6', '7', '8', '9'] := by
  simp only [Char.isDigit, Bool.and_eq_true, decide_eq_true_eq, ge_iff_le,
    UInt32.le_iff_toNat_le] at h
  have hlow : 48 ≤ c.toNat := h.1
  have hhigh : c.toNat ≤ 57 := h.2
  have hc := Char.ofNat_toNat c
  generalize c.toNat = n at *
  interval_cases n <;> subst hc <;> decide

theorem take_of_isDigit (h : c.isDigit = true) (r : List Char) :
    take c r = ⟨some (.number (String.ofList (c :: r.takeWhile Char.isDigit))),
      c :: r.takeWhile Char.isDigit, r.dropWhile Char.isDigit⟩ := by
  have hmem := mem_of_isDigit h
  simp only [List.mem_cons, List.not_mem_nil, or_false] at hmem
  rcases hmem with rfl | rfl | rfl | rfl | rfl | rfl | rfl | rfl | rfl | rfl <;> rfl

/-- **Digits are one number** if no digit follows. -/
theorem scan_digits (hne : digits ≠ []) (h : ∀ c ∈ digits, c.isDigit = true)
    (hc : c.isDigit = false) (r : List Char) :
    scan (digits ++ c :: r) = .number (String.ofList digits) :: scan (c :: r) := by
  obtain ⟨b, bs, rfl⟩ := List.exists_cons_of_ne_nil hne
  obtain ⟨hb, hbs⟩ := List.forall_mem_cons.mp h
  have htake : (bs ++ c :: r).takeWhile Char.isDigit = bs := by
    rw [takeWhile_append_cons_of_neg hc, List.takeWhile_eq_self_iff.mpr hbs]
  have hdrop : (bs ++ c :: r).dropWhile Char.isDigit = c :: r := by
    rw [dropWhile_append_cons_of_neg hc, List.dropWhile_eq_nil_iff.mpr hbs, List.nil_append]
  rw [List.cons_append, scan_cons, take_of_isDigit hb, htake, hdrop]
  rfl

end Lexeme

namespace Route

open Script Lexeme

/-- How many digits. -/
theorem toList_toString (n : Nat) : (toString n).toList = Nat.toDigits 10 n := by
  rw [Nat.toString_eq_repr, Nat.repr_eq_ofList_toDigits, String.toList_ofList]

/-- The lexemes of a line of a listing, without the end. -/
def lineLexemes (d : Direction) (n : Nat) : List Lexeme :=
  if n = 1 then [.move d, .semicolon] else Loop.opening (toString n) ++ [.move d, .semicolon]

/-- What stands in a line behind the number of rounds. -/
def lineEnd (d : Direction) : List Char :=
  ';' :: (" i++) ".toList ++ (d.call.toList ++ [';']))

theorem scan_lineEnd (d : Direction) :
    scan (lineEnd d) =
      [.semicolon, .word "i", .increment, .closeParen, .move d, .semicolon, .finish] := by
  rw [scan_eq_cutOff 8]
  cases d <;> exact congrArg _ scan_nil

theorem toList_scriptLine_of_ne (h : n ≠ 1) (d : Direction) :
    (scriptLine d n).toList =
      "for (let i = 0; i <".toList ++ ' ' :: (Nat.toDigits 10 n ++ lineEnd d) := by
  rw [scriptLine, if_neg h]
  simp only [String.toList_append, toList_toString, List.append_assoc]
  rfl

/-- **The lexemes of a line.** -/
theorem scan_scriptLine (d : Direction) (n : Nat) :
    scan (scriptLine d n).toList = lineLexemes d n ++ [.finish] := by
  by_cases h : n = 1
  · subst h
    rw [scan_eq_cutOff 2]
    cases d <;> exact congrArg _ scan_nil
  · have hdigits : scan (Nat.toDigits 10 n ++ lineEnd d) =
        .number (toString n) :: scan (lineEnd d) := by
      rw [← String.ofList_toList (s := toString n), toList_toString]
      exact scan_digits Nat.toDigits_ne_nil
        (fun c hc => Nat.isDigit_of_mem_toDigits (by decide) (by decide) hc) (by decide) _
    rw [toList_scriptLine_of_ne h, scan_eq_cutOff 15, lineLexemes, if_neg h]
    have hfirst : (cutOff 15 ("for (let i = 0; i <".toList ++
        ' ' :: (Nat.toDigits 10 n ++ lineEnd d))) =
      (.word "for" :: Loop.headerOpening, ' ' :: (Nat.toDigits 10 n ++ lineEnd d)) := rfl
    rw [hfirst, scan_cons_of_isBlank (by decide), hdigits, scan_lineEnd]
    rfl

/-! ### What a line does not hold -/

/-- A character that is not in a line. -/
theorem not_mem_scriptLine (hc : c.isDigit = false)
    (hd : c ∉ ("for (let i = 0; i <".toList ++ ' ' :: lineEnd d)) :
    c ∉ (scriptLine d n).toList := by
  rw [List.mem_append, List.mem_cons, not_or, not_or] at hd
  by_cases h : n = 1
  · subst h
    refine fun hmem => hd.2.2 ?_
    have hline : (scriptLine d 1).toList = d.call.toList ++ [';'] := String.toList_append
    rw [hline] at hmem
    exact List.mem_cons_of_mem _ (List.mem_append_right _ hmem)
  · rw [toList_scriptLine_of_ne h]
    simp only [List.mem_append, List.mem_cons, not_or]
    refine ⟨hd.1, hd.2.1, fun hmem => ?_, hd.2.2⟩
    rw [Nat.isDigit_of_mem_toDigits (by decide) (by decide) hmem] at hc
    cases hc

theorem isLine_scriptLine (d : Direction) (n : Nat) : IsLine (scriptLine d n).toList where
  not_mem := not_mem_scriptLine (by decide) (by cases d <;> decide)
  not_infix hinf :=
    not_mem_scriptLine (c := '/') (by decide) (by cases d <;> decide)
      (hinf.subset List.mem_cons_self)

/-- Digits are no forbidden word. -/
theorem findForbidden_digits (hne : digits ≠ []) (h : ∀ c ∈ digits, c.isDigit = true) (k : Nat) :
    findForbidden k digits = none := by
  obtain ⟨b, bs, rfl⟩ := List.exists_cons_of_ne_nil hne
  have hword : ∀ c ∈ b :: bs, continuesWord c = true := fun c hc => by
    simp [continuesWord, Char.isAlphanum, h c hc]
  obtain ⟨hb, hbs⟩ := List.forall_mem_cons.mp hword
  have hnot : forbiddenWords.all (fun word => word.toList.any fun c => !c.isDigit) = true := by
    decide +kernel
  rw [findForbidden_cons_of_continuesWord hb, List.takeWhile_eq_self_iff.mpr hbs,
    List.dropWhile_eq_nil_iff.mpr hbs, if_neg, findForbidden]
  intro hmem
  obtain ⟨c, hc, hdigit⟩ := List.any_eq_true.mp (List.all_eq_true.mp hnot _ hmem)
  rw [String.toList_ofList] at hc
  rw [h c hc] at hdigit
  cases hdigit

theorem checkAllowed_scriptLine (d : Direction) (n : Nat) :
    checkAllowed (scriptLine d n) = .ok () := by
  by_cases h : n = 1
  · subst h
    cases d <;> decide +kernel
  · have hhead : findForbidden 1 "for (let i = 0; i <".toList = none := by decide +kernel
    have hend : findForbidden 1 (lineEnd d) = none := by cases d <;> decide +kernel
    have hdigits : findForbidden 1 (Nat.toDigits 10 n) = none :=
      findForbidden_digits Nat.toDigits_ne_nil
        (fun c hc => Nat.isDigit_of_mem_toDigits (by decide) (by decide) hc) 1
    rw [checkAllowed_eq_ok, toList_scriptLine_of_ne h,
      findForbidden_append_cons (by decide) (by decide),
      findForbidden_cons_of_not_continuesWord (by decide), if_neg (by simp), if_neg (by decide)]
    exact ⟨hhead, (findForbidden_append_cons (by decide) (by decide) 1 _ _).mpr ⟨hdigits, hend⟩⟩

theorem not_blank_scriptLine (d : Direction) (n : Nat) : Text.blank (scriptLine d n) = false := by
  have hmem : ';' ∈ (scriptLine d n).toList := by
    unfold scriptLine
    split <;> simp
  rw [Text.blank, List.all_eq_false]
  exact ⟨';', hmem, by decide⟩

end Route

end ScriptedMaze
