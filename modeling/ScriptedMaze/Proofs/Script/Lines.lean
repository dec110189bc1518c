import Mathlib.Data.List.Infix
import Mathlib.Data.List.TakeWhile
import ScriptedMaze.Proofs.Script.Ending

/-!
# Scripts that are cut at their line ends

A script can be looked at line by line if nothing in it reaches over the end of a line.
Only a comment between `/*` and `*/` does: every other part of a script ends where its line
ends. So a text is given here as a first line that opens no such comment, a line feed, and
the text behind it.

* The tokens of the whole are those of the line without their end, and then those of the
  text behind it, counted from the next line on (`Token.scanFrom_append_lineFeed`).
* There is something forbidden in the whole if there is in the line or in the text behind
  it (`Script.findForbidden_append_lineFeed`).
* The tokens of a line are the same on whatever line it stands, but for their line
  (`Token.scanFrom_eq_map_onLine`).

The first two follow what is taken from the front of the text. What is taken from the line
alone is taken from the whole as well (`Lexeme.take_append_lineFeed`), with one exception:
blank characters are taken beyond the line feed. These are therefore taken one by one
(`Token.scanFrom_cons_of_isBlank`).
-/

namespace ScriptedMaze

variable {p q : Place} {c : Char} {r cs rest : List Char}

/-! ### Taking from a line -/

theorem takeWhile_append_cons_of_neg {α : Type*} {f : α → Bool} {x : α} (h : f x = false)
    (a b : List α) : (a ++ x :: b).takeWhile f = a.takeWhile f := by
  induction a with
  | nil => exact List.takeWhile_cons_of_neg (by simp [h])
  | cons y a ih => cases hy : f y <;> simp [hy, ih]

theorem dropWhile_append_cons_of_neg {α : Type*} {f : α → Bool} {x : α} (h : f x = false)
    (a b : List α) : (a ++ x :: b).dropWhile f = a.dropWhile f ++ x :: b := by
  induction a with
  | nil => exact List.dropWhile_cons_of_neg (by simp [h])
  | cons y a ih => cases hy : f y <;> simp [hy, ih]

theorem isPrefix_append_cons_iff {α : Type*} {x : α} {a b c : List α} (h : x ∉ a) :
    a <+: b ++ x :: c ↔ a <+: b := by
  refine ⟨fun ha => ?_, fun ha => ha.trans (List.prefix_append b _)⟩
  rcases List.prefix_or_prefix_of_prefix ha (List.prefix_append b _) with hab | ⟨d, rfl⟩
  · exact hab
  · cases d with
    | nil => rw [List.append_nil]
    | cons y d =>
      obtain ⟨rfl, -⟩ := List.cons_prefix_cons.mp ((List.prefix_append_right_inj b).mp ha)
      exact absurd (List.mem_append_right b List.mem_cons_self) h

/-- **A line**: a text without line feeds in which no comment is opened that could reach over
its end. -/
structure IsLine (cs : List Char) : Prop where
  not_mem : '\n' ∉ cs
  not_infix : ¬['/', '*'] <:+: cs

theorem IsLine.suffix (h : IsLine cs) (hr : rest <:+ cs) : IsLine rest where
  not_mem hmem := h.not_mem (hr.subset hmem)
  not_infix hinf := h.not_infix (hinf.trans hr.isInfix)

namespace Lexeme

theorem takeComment_eq_none (h₁ : ∀ r, cs ≠ '/' :: '/' :: r) (h₂ : ∀ r, cs ≠ '/' :: '*' :: r) :
    takeComment cs = none := by
  fun_cases takeComment cs with
  | case1 r => exact absurd rfl (h₁ r)
  | case2 r => exact absurd rfl (h₂ r)
  | case3 => rfl

theorem slash_of_append_lineFeed (hc : c ≠ '\n') (h : cs ++ '\n' :: rest = '/' :: c :: r) :
    ∃ r, cs = '/' :: c :: r := by
  rcases cs with _ | ⟨d, _ | ⟨d', cs⟩⟩
  · cases h
  · exact absurd (List.cons_eq_cons.mp (List.cons_eq_cons.mp h).2).1.symm hc
  · simp only [List.cons_append, List.cons.injEq] at h
    obtain ⟨rfl, rfl, -⟩ := h
    exact ⟨cs, rfl⟩

theorem takeComment_append_lineFeed (h : IsLine cs) (rest : List Char) :
    takeComment (cs ++ '\n' :: rest) =
      (takeComment cs).map fun p => (p.1, p.2 ++ '\n' :: rest) := by
  fun_cases takeComment cs with
  | case1 r =>
    rw [List.cons_append, List.cons_append, takeComment, Option.map_some,
      takeWhile_append_cons_of_neg (by decide), dropWhile_append_cons_of_neg (by decide)]
  | case2 r => exact absurd (List.prefix_append ['/', '*'] r).isInfix h.not_infix
  | case3 _ h₁ h₂ =>
    -- a `/` at the end of the line is followed by the line feed
    refine takeComment_eq_none (fun r heq => ?_) fun r heq => ?_
    · exact absurd (slash_of_append_lineFeed (by decide) heq) (not_exists.mpr h₁)
    · exact absurd (slash_of_append_lineFeed (by decide) heq) (not_exists.mpr h₂)

theorem not_mem_call (d : Direction) : '\n' ∉ d.call.toList := by
  cases d <;> decide

theorem takeMove_append_lineFeed (cs rest : List Char) :
    takeMove (cs ++ '\n' :: rest) = (takeMove cs).map fun p => (p.1, p.2 ++ '\n' :: rest) := by
  unfold takeMove
  rw [List.map_findSome?]
  congr 1
  funext d
  have hprefix := isPrefix_append_cons_iff (b := cs) (c := rest) (not_mem_call d)
  simp only [← List.isPrefixOf_iff_prefix] at hprefix
  simp only [Function.comp_apply, hprefix]
  split
  · rename_i h
    have hlen := (List.isPrefixOf_iff_prefix.mp h).length_le
    rw [String.length_toList] at hlen
    rw [List.drop_append_of_le_length hlen]
    rfl
  · rfl

theorem take_of_isBlank (hc : Text.isBlank c = true) (r : List Char) :
    take c r = ⟨none, c :: r.takeWhile Text.isBlank, r.dropWhile Text.isBlank⟩ := by
  have hne : c ≠ '/' := by
    rintro rfl
    exact absurd hc (by decide)
  have hcomment : takeComment (c :: r) = none :=
    takeComment_eq_none (fun r' heq => hne (List.cons_eq_cons.mp heq).1)
      fun r' heq => hne (List.cons_eq_cons.mp heq).1
  unfold take
  split
  · rename_i h
    rw [hcomment] at h
    cases h
  · exact if_pos hc

/-- Takes a mark, or any other character alone. -/
def takeMark (c : Char) (r : List Char) : Cut :=
  match c, r with
  | '+', '+' :: rest => ⟨some increment, ['+', '+'], rest⟩
  | _, _ => ⟨some (ofMark c), [c], r⟩

theorem takeMark_of_ne (h : ∀ r', c = '+' → r ≠ '+' :: r') :
    takeMark c r = ⟨some (ofMark c), [c], r⟩ := by
  fun_cases takeMark c r with
  | case1 r' => exact absurd rfl (h r' rfl)
  | case2 => rfl

theorem takeMark_append_lineFeed (c : Char) (r rest : List Char) :
    takeMark c (r ++ '\n' :: rest) =
      { takeMark c r with rest := (takeMark c r).rest ++ '\n' :: rest } := by
  fun_cases takeMark c r with
  | case1 => rfl
  | case2 _ _ h =>
    refine takeMark_of_ne fun r' hc heq => ?_
    cases r with
    | nil => cases heq
    | cons d r => exact h r hc (congrArg (· :: r) (List.cons_eq_cons.mp heq).1)

/-- **What is taken from a line is taken from a text that begins with it**, unless it is
blank. -/
theorem take_append_lineFeed (hc : Text.isBlank c = false) (h : IsLine (c :: r))
    (rest : List Char) :
    take c (r ++ '\n' :: rest) = { take c r with rest := (take c r).rest ++ '\n' :: rest } := by
  have hcomment := takeComment_append_lineFeed h rest
  have hmove := takeMove_append_lineFeed (c :: r) rest
  rw [List.cons_append] at hcomment hmove
  unfold take
  rw [hcomment, hmove, hc]
  cases takeComment (c :: r) with
  | some p => rfl
  | none =>
    cases takeMove (c :: r) with
    | some p => rfl
    | none =>
      simp only [Option.map_none, Bool.false_eq_true, if_false]
      split
      · rw [takeWhile_append_cons_of_neg (by decide), dropWhile_append_cons_of_neg (by decide)]
      · split
        · rw [takeWhile_append_cons_of_neg (by decide), dropWhile_append_cons_of_neg (by decide)]
        · exact takeMark_append_lineFeed c r rest

/-- **Going through a text**: what holds of the rest after what is taken, and of the rest
after one character, holds of the text. -/
theorem take_induction {P : List Char → Prop} (nil : P [])
    (cons : ∀ c r, P (take c r).rest → P r → P (c :: r)) (cs : List Char) : P cs := by
  induction hlen : cs.length using Nat.strong_induction_on generalizing cs with
  | _ _ ih =>
    cases cs with
    | nil => exact nil
    | cons c r =>
      subst hlen
      exact cons c r (ih _ (length_rest_take c r) _ rfl) (ih _ (Nat.lt_succ_self _) _ rfl)

theorem rest_take_suffix (c : Char) (r : List Char) : (take c r).rest <:+ c :: r :=
  ⟨(take c r).taken, take_append c r⟩

theorem taken_take_subset (c : Char) (r : List Char) : (take c r).taken ⊆ c :: r := by
  conv_rhs => rw [← take_append c r]
  exact List.subset_append_left _ _

end Lexeme

namespace Place

/-- Within a line the column alone is counted. -/
theorem after_of_not_mem (h : '\n' ∉ cs) : p.after cs = ⟨p.line, p.column + cs.length⟩ := by
  induction cs generalizing p with
  | nil => rfl
  | cons c cs ih =>
    obtain ⟨hc, hcs⟩ := List.ne_and_not_mem_of_not_mem_cons h
    have hnext : p.next c = ⟨p.line, p.column + 1⟩ := if_neg (Ne.symm hc)
    rw [after, List.foldl_cons, ← after, hnext, ih hcs, List.length_cons, Nat.add_assoc,
      Nat.add_comm 1]

theorem line_le_after (p : Place) (cs : List Char) : p.line ≤ (p.after cs).line := by
  induction cs generalizing p with
  | nil => exact Nat.le_refl _
  | cons c cs ih =>
    refine Nat.le_trans ?_ (ih (p.next c))
    unfold next
    split
    · exact Nat.le_succ _
    · exact Nat.le_refl _

end Place

namespace Token

open Lexeme

/-- A token on another line. -/
def onLine (n : Nat) (t : Token) : Token := { t with line := n }

@[simp] theorem lexeme_onLine (n : Nat) (t : Token) : (t.onLine n).lexeme = t.lexeme := rfl

@[simp] theorem line_onLine (n : Nat) (t : Token) : (t.onLine n).line = n := rfl

theorem scanFrom_cons (p : Place) (c : Char) (r : List Char) :
    scanFrom p (c :: r) = ((take c r).lexeme.map (placed · p)).toList ++
      scanFrom (p.after (take c r).taken) (take c r).rest := by
  rw [scanFrom]
  cases (take c r).lexeme <;> rfl

/-- **A blank character leaves nothing.** -/
theorem scanFrom_cons_of_isBlank (hc : Text.isBlank c = true) (p : Place) (r : List Char) :
    scanFrom p (c :: r) = scanFrom (p.next c) r := by
  rw [scanFrom_cons, take_of_isBlank hc]
  dsimp only [Option.map_none, Option.toList_none]
  rw [List.nil_append]
  cases r with
  | nil => rfl
  | cons d r =>
    cases hd : Text.isBlank d with
    | false =>
      rw [List.takeWhile_cons_of_neg (by simp [hd]), List.dropWhile_cons_of_neg (by simp [hd])]
      rfl
    | true =>
      rw [List.takeWhile_cons_of_pos hd, List.dropWhile_cons_of_pos hd, scanFrom_cons,
        take_of_isBlank hd]
      rfl

/-- The tokens of a blank text are its end. -/
theorem scanFrom_of_blank (h : cs.all Text.isBlank = true) (p : Place) :
    scanFrom p cs = [.placed .finish (p.after cs)] := by
  induction cs generalizing p with
  | nil => rw [scanFrom]; rfl
  | cons c cs ih =>
    rw [List.all_cons, Bool.and_eq_true] at h
    rw [scanFrom_cons_of_isBlank h.1, ih h.2]
    rfl

/-- No token stands above the place at which the text begins. -/
theorem line_le_of_mem_scanFrom {t : Token} (ht : t ∈ scanFrom p cs) : p.line ≤ t.line := by
  induction cs using take_induction generalizing p with
  | nil =>
    rw [scanFrom, List.mem_singleton] at ht
    rw [ht]
    exact Nat.le_refl _
  | cons c r ih _ =>
    rw [scanFrom_cons, List.mem_append, Option.mem_toList,
      Option.map_eq_some_iff] at ht
    rcases ht with ⟨k, -, rfl⟩ | ht
    · exact Nat.le_refl _
    · exact Nat.le_trans (p.line_le_after _) (ih ht)

/-- **The tokens of a line are the same on every line**, but for the line. -/
theorem scanFrom_eq_map_onLine (h : '\n' ∉ cs) (hcol : p.column = q.column) :
    scanFrom p cs = (scanFrom q cs).map (onLine p.line) := by
  induction cs using take_induction generalizing p q with
  | nil =>
    rw [scanFrom, scanFrom, placed, hcol]
    rfl
  | cons c r ih _ =>
    have htaken : '\n' ∉ (take c r).taken := fun hmem => h (taken_take_subset c r hmem)
    have hrest : '\n' ∉ (take c r).rest := fun hmem => h ((rest_take_suffix c r).subset hmem)
    rw [scanFrom_cons, scanFrom_cons, List.map_append, ih (q := q.after (take c r).taken) hrest]
    · rw [Place.after_of_not_mem htaken]
      congr 1
      cases (take c r).lexeme with
      | none => rfl
      | some k =>
        rw [Option.map_some, Option.map_some, placed, hcol]
        rfl
    · rw [Place.after_of_not_mem htaken, Place.after_of_not_mem htaken, hcol]

/-- **The tokens of a text that begins with a line** are those of the line without its end,
and those of what stands below it. -/
theorem scanFrom_append_lineFeed (h : IsLine cs) (p : Place) (rest : List Char) :
    scanFrom p (cs ++ '\n' :: rest) =
      (scanFrom p cs).dropLast ++ scanFrom ⟨p.line + 1, 1⟩ rest := by
  induction cs using take_induction generalizing p with
  | nil =>
    rw [List.nil_append, scanFrom_cons_of_isBlank (by decide), scanFrom.eq_1 p]
    rfl
  | cons c r ih ihr =>
    have hnext : '\n' ≠ c := (List.ne_and_not_mem_of_not_mem_cons h.not_mem).1
    rw [List.cons_append]
    cases hc : Text.isBlank c with
    | true =>
      have hline : (p.next c).line = p.line := by rw [Place.next, if_neg hnext.symm]
      rw [scanFrom_cons_of_isBlank hc, scanFrom_cons_of_isBlank hc,
        ihr (h.suffix (List.suffix_cons c r)), hline]
    | false =>
      have htaken : '\n' ∉ (take c r).taken := fun hmem =>
        h.not_mem (taken_take_subset c r hmem)
      obtain ⟨body, e, heq, -⟩ := scanFrom_eq (p.after (take c r).taken) (take c r).rest
      rw [scanFrom_cons, take_append_lineFeed hc h, scanFrom_cons]
      dsimp only
      rw [ih (h.suffix (rest_take_suffix c r)), List.dropLast_append_of_ne_nil (by simp [heq]),
        List.append_assoc, Place.after_of_not_mem htaken]

end Token

namespace Script

open Lexeme

/-! ### Line ends -/

/-- A text whose lines end with line feeds stays as it is. -/
theorem unifyLineEnds_of_not_mem (h : '\r' ∉ cs) : Text.unifyLineEnds cs = cs := by
  fun_induction Text.unifyLineEnds cs with
  | case1 => exact absurd List.mem_cons_self h
  | case2 => exact absurd List.mem_cons_self h
  | case3 c r _ _ ih => rw [ih fun hr => h (List.mem_cons_of_mem c hr)]
  | case4 => rfl

/-! ### What is forbidden on a line -/

theorem findForbidden_cons_of_continuesWord (hc : continuesWord c = true) (n : Nat)
    (r : List Char) :
    findForbidden n (c :: r) =
      if String.ofList (c :: r.takeWhile continuesWord) ∈ forbiddenWords then
        some (String.ofList (c :: r.takeWhile continuesWord), n)
      else findForbidden n (r.dropWhile continuesWord) := by
  rw [findForbidden, if_pos hc]

theorem findForbidden_cons_of_not_continuesWord (hc : continuesWord c = false) (n : Nat)
    (r : List Char) :
    findForbidden n (c :: r) =
      if c = '=' ∧ r.head? = some '>' then some ("=>", n)
      else findForbidden (if c = '\n' then n + 1 else n) r := by
  rw [findForbidden, if_neg (by simp [hc])]

/-- Whether there is something forbidden does not depend on where the lines are counted
from. -/
theorem findForbidden_eq_none_congr (n n' : Nat) (cs : List Char) :
    findForbidden n cs = none ↔ findForbidden n' cs = none := by
  fun_induction findForbidden n cs generalizing n' with
  | case1 => rw [findForbidden]
  | case2 n c r hc word hword =>
    rw [findForbidden_cons_of_continuesWord hc, if_pos hword]
    simp
  | case3 n c r hc word hword ih => rw [findForbidden_cons_of_continuesWord hc, if_neg hword, ih]
  | case4 n c r hc harrow =>
    rw [findForbidden_cons_of_not_continuesWord (by simpa using hc), if_pos harrow]
    simp
  | case5 n c r hc harrow ih =>
    rw [findForbidden_cons_of_not_continuesWord (by simpa using hc), if_neg harrow]
    exact ih _

/-- **What is forbidden does not reach over a character that no word goes on with**, unless
it is the head of an arrow. -/
theorem findForbidden_append_cons (hc : continuesWord c = false) (hne : c ≠ '>') (n : Nat)
    (cs rest : List Char) :
    findForbidden n (cs ++ c :: rest) = none ↔
      findForbidden n cs = none ∧ findForbidden n (c :: rest) = none := by
  induction hlen : cs.length using Nat.strong_induction_on generalizing cs with
  | _ _ ih =>
    subst hlen
    cases cs with
    | nil => simp [findForbidden.eq_1]
    | cons b r =>
      rw [List.cons_append]
      cases hb : continuesWord b with
      | true =>
        rw [findForbidden_cons_of_continuesWord hb, findForbidden_cons_of_continuesWord hb,
          takeWhile_append_cons_of_neg hc, dropWhile_append_cons_of_neg hc]
        split
        · simp
        · refine ih _ ?_ _ rfl
          rw [List.length_cons]
          exact Nat.lt_succ_of_le (List.dropWhile_sublist _).length_le
      | false =>
        have harrow : (r ++ c :: rest).head? = some '>' ↔ r.head? = some '>' := by
          cases r <;> simp [hne]
        rw [findForbidden_cons_of_not_continuesWord hb,
          findForbidden_cons_of_not_continuesWord hb]
        simp only [harrow]
        split
        · simp
        · rw [findForbidden_eq_none_congr _ n, ih _ (Nat.lt_succ_self _) r rfl,
            findForbidden_eq_none_congr n _ r]

/-- **A text that begins with a line holds something forbidden** exactly if the line does or
what stands below it. -/
theorem findForbidden_append_lineFeed (n : Nat) (cs rest : List Char) :
    findForbidden n (cs ++ '\n' :: rest) = none ↔
      findForbidden n cs = none ∧ findForbidden (n + 1) rest = none := by
  rw [findForbidden_append_cons (by decide) (by decide),
    findForbidden_cons_of_not_continuesWord (by decide), if_neg (by simp), if_pos rfl]

/-- Words are made of characters from `$` to `z`. -/
theorem toNat_of_continuesWord (h : continuesWord c = true) : 36 ≤ c.toNat ∧ c.toNat ≤ 122 := by
  have hrange : ∀ a b : Char, a.val ≤ c.val ∧ c.val ≤ b.val →
      a.toNat ≤ c.toNat ∧ c.toNat ≤ b.toNat := fun a b h =>
    ⟨UInt32.le_iff_toNat_le.mp h.1, UInt32.le_iff_toNat_le.mp h.2⟩
  have hrange' : ∀ a b : Char, (decide (a.val ≤ c.val) && decide (c.val ≤ b.val)) = true →
      a.toNat ≤ c.toNat ∧ c.toNat ≤ b.toNat := by
    intro a b h
    obtain ⟨ha, hb⟩ := (Bool.and_eq_true _ _).mp h
    exact hrange a b ⟨of_decide_eq_true ha, of_decide_eq_true hb⟩
  rcases (Bool.or_eq_true _ _).mp h with h | h
  · rcases (Bool.or_eq_true _ _).mp h with h | h
    · rcases (Bool.or_eq_true _ _).mp h with h | h
      · rcases (Bool.or_eq_true _ _).mp h with h | h
        · have hupper := hrange 'A' 'Z' (of_decide_eq_true h)
          exact ⟨Nat.le_trans (by decide) hupper.1, Nat.le_trans hupper.2 (by decide)⟩
        · have hlower := hrange' 'a' 'z' h
          exact ⟨Nat.le_trans (by decide) hlower.1, hlower.2⟩
      · have hdigit := hrange' '0' '9' h
        exact ⟨Nat.le_trans (by decide) hdigit.1, Nat.le_trans hdigit.2 (by decide)⟩
    · rw [eq_of_beq h]
      decide
  · rw [eq_of_beq h]
    decide

/-- No blank is among the characters of words. -/
theorem continuesWord_of_isBlank (hc : Text.isBlank c = true) : continuesWord c = false := by
  refine eq_false_of_ne_true fun h => ?_
  have hbounds := toNat_of_continuesWord h
  simp only [Text.isBlank, Bool.or_eq_true, Bool.and_eq_true, decide_eq_true_eq, beq_iff_eq] at hc
  omega

/-- Nothing is forbidden in a blank text. -/
theorem findForbidden_of_blank (h : cs.all Text.isBlank = true) (n : Nat) :
    findForbidden n cs = none := by
  induction cs generalizing n with
  | nil => rw [findForbidden]
  | cons c cs ih =>
    rw [List.all_cons, Bool.and_eq_true] at h
    have hne : c ≠ '=' := by
      rintro rfl
      exact absurd h.1 (by decide)
    rw [findForbidden_cons_of_not_continuesWord (continuesWord_of_isBlank h.1),
      if_neg fun harrow => hne harrow.1]
    exact ih h.2 _

theorem checkAllowed_eq_ok {source : String} :
    checkAllowed source = .ok () ↔ findForbidden 1 source.toList = none := by
  unfold checkAllowed
  cases findForbidden 1 source.toList <;> simp

end Script

end ScriptedMaze
