import ScriptedMaze.Proofs.Script.Lines

/-!
# What stands between the tokens

The tokens of a script leave out its blanks and its comments, and nothing else. To say so a
text is looked at as a list of **parts** (`Part`), each of them a token and the gap in front
of it. The end of the script is a token that is spelled with no character, and the gap in
front of it is what stands behind all other tokens. The parts of a text (`partsFrom`) are
found on the way on which its tokens are.

* The parts **cover** the text (`Covers`): put together they are the text again, each token
  stands at the line and column where its spelling begins, and each gap is made of blanks and
  complete comments (`Skipped`), as many as there are.
* The tokens of a script are those of parts that cover it, one behind the other and none
  within a gap, and the end comes last and behind all of the text (`Script.tokens_cover`).

A comment is complete (`IsComment`) if it goes to the end of its line, or up to the first
`*/` behind its `/*`. Where it ends depends on what stands behind it, and so does whether a
gap may be passed over.
-/

namespace ScriptedMaze

variable {p q : Place} {c : Char} {k : Lexeme} {r cs before later rest taken gap more : List Char}

/-! ### Places in a text -/

namespace Place

/-- **The place behind a text**, by its line feeds and by the characters behind the last of
them. -/
def behind (before : List Char) : Place :=
  ⟨before.count '\n' + 1, (before.reverse.takeWhile (· ≠ '\n')).length + 1⟩

/-- Comes first in reading. -/
def Before (p q : Place) : Prop :=
  p.line < q.line ∨ p.line = q.line ∧ p.column < q.column

theorem Before.ne (h : p.Before q) : p ≠ q := by
  rintro rfl
  rcases h with h | ⟨-, h⟩ <;> exact Nat.lt_irrefl _ h

theorem Before.trans {p' : Place} (h : p.Before p') (h' : p'.Before q) : p.Before q := by
  unfold Before at *
  omega

theorem before_next (p : Place) (c : Char) : p.Before (p.next c) := by
  unfold next
  split
  · exact Or.inl (Nat.lt_succ_self _)
  · exact Or.inr ⟨rfl, Nat.lt_succ_self _⟩

theorem eq_or_before_after (p : Place) (cs : List Char) :
    p.after cs = p ∨ p.Before (p.after cs) := by
  induction cs generalizing p with
  | nil => exact Or.inl rfl
  | cons c cs ih =>
    refine Or.inr ?_
    change p.Before ((p.next c).after cs)
    rcases ih (p.next c) with h | h
    · rw [h]
      exact before_next p c
    · exact (before_next p c).trans h

theorem before_after (p : Place) (h : cs ≠ []) : p.Before (p.after cs) := by
  obtain ⟨c, cs, rfl⟩ := List.exists_cons_of_ne_nil h
  change p.Before ((p.next c).after cs)
  rcases eq_or_before_after (p.next c) cs with h | h
  · rw [h]
    exact before_next p c
  · exact (before_next p c).trans h

theorem behind_concat (cs : List Char) (c : Char) : behind (cs ++ [c]) = (behind cs).next c := by
  unfold behind next
  by_cases hc : c = '\n' <;> simp [hc]

/-- The place behind a text is found character by character. -/
theorem after_behind (before cs : List Char) :
    (behind before).after cs = behind (before ++ cs) := by
  induction cs generalizing before with
  | nil => rw [after_nil, List.append_nil]
  | cons c cs ih =>
    rw [List.append_cons, ← ih, behind_concat]
    rfl

theorem after_eq_behind (cs : List Char) : ({} : Place).after cs = behind cs :=
  after_behind [] cs

/-- A text that is longer ends later. -/
theorem behind_before_append (before : List Char) (h : more ≠ []) :
    (behind before).Before (behind (before ++ more)) := by
  rw [← after_behind]
  exact before_after _ h

/-- The line behind a text that is gone on with. -/
theorem line_after (p : Place) (cs : List Char) : (p.after cs).line = p.line + cs.count '\n' := by
  induction cs generalizing p with
  | nil => rfl
  | cons c cs ih =>
    change ((p.next c).after cs).line = _
    rw [ih]
    unfold next
    split
    · rename_i hc
      rw [hc, List.count_cons_self, Nat.add_assoc, Nat.add_comm 1]
    · rename_i hc
      rw [List.count_cons_of_ne hc]

end Place

/-! ### Comments -/

/-- **A complete comment** in front of `later`: `//` and the rest of its line, or what stands
from `/*` up to the first `*/` behind it. -/
inductive IsComment (later : List Char) : List Char → Prop
  | line {inside : List Char} : '\n' ∉ inside → (∀ c ∈ later.head?, c = '\n') →
      IsComment later ('/' :: '/' :: inside)
  | block {inside : List Char} : ¬['*', '/'] <:+: inside ++ ['*'] →
      IsComment later ('/' :: '*' :: (inside ++ ['*', '/']))

/-- **What may be passed over** in front of `later`: blanks and complete comments. -/
inductive Skipped (later : List Char) : List Char → Prop
  | nil : Skipped later []
  | blank {c : Char} {gap : List Char} : Text.isBlank c = true → Skipped later gap →
      Skipped later (c :: gap)
  | comment {comment gap : List Char} : IsComment (gap ++ later) comment → Skipped later gap →
      Skipped later (comment ++ gap)

namespace Skipped

theorem append (h : Skipped (more ++ later) gap) (hmore : Skipped later more) :
    Skipped later (gap ++ more) := by
  induction h with
  | nil => exact hmore
  | blank hc _ ih => exact .blank hc ih
  | comment hcomment _ ih =>
    rw [List.append_assoc]
    exact .comment (by rwa [List.append_assoc]) ih

theorem of_blank (h : ∀ c ∈ gap, Text.isBlank c = true) : Skipped later gap := by
  induction gap with
  | nil => exact .nil
  | cons c gap ih =>
    obtain ⟨hc, hgap⟩ := List.forall_mem_cons.mp h
    exact .blank hc (ih hgap)

end Skipped

namespace Lexeme

/-- **A comment that is opened is never closed** exactly if there is no `*/` behind it. -/
theorem closeComment_eq_none_iff : closeComment cs = none ↔ ¬['*', '/'] <:+: cs := by
  fun_induction closeComment cs with
  | case1 r => simp [List.infix_cons_iff]
  | case2 c r h ih =>
    rw [Option.map_eq_none_iff, ih, List.infix_cons_iff, not_or]
    refine ⟨fun hr => ⟨fun hprefix => ?_, hr⟩, And.right⟩
    obtain ⟨hc, t, rfl⟩ := List.cons_prefix_cons.mp hprefix
    exact h t hc.symm rfl
  | case3 => simp

theorem exists_of_closeComment (h : closeComment cs = some (taken, rest)) :
    ∃ inside, taken = inside ++ ['*', '/'] ∧ ¬['*', '/'] <:+: inside ++ ['*'] := by
  fun_induction closeComment cs generalizing taken rest with
  | case1 r =>
    cases h
    exact ⟨[], rfl, by decide⟩
  | case2 c r hne ih =>
    obtain ⟨⟨taken', rest'⟩, hr, heq⟩ := Option.map_eq_some_iff.mp h
    cases heq
    obtain ⟨inside, rfl, hinside⟩ := ih hr
    refine ⟨c :: inside, rfl, ?_⟩
    rw [List.cons_append, List.infix_cons_iff, not_or]
    refine ⟨fun hprefix => ?_, hinside⟩
    obtain ⟨hc, hslash⟩ := List.cons_prefix_cons.mp hprefix
    -- the text would begin with `*/`, and the comment would have been closed there
    have hr' := closeComment_append hr
    cases inside with
    | nil => simp at hslash
    | cons d inside =>
      obtain ⟨hd, -⟩ := List.cons_prefix_cons.mp hslash
      exact hne _ hc.symm (by rw [← hr', ← hd]; rfl)
  | case3 => cases h

/-- What is taken as a comment is one. -/
theorem isComment_of_takeComment (h : takeComment cs = some (taken, rest)) :
    IsComment rest taken := by
  fun_cases takeComment cs with
  | case1 r =>
    rw [takeComment] at h
    cases h
    refine .line (fun hmem => by simpa using List.mem_takeWhile_imp hmem) fun c hc => ?_
    have hhead := List.head?_dropWhile_not (fun c : Char => decide (c ≠ '\n')) r
    rw [Option.mem_def] at hc
    rw [hc] at hhead
    simpa using hhead
  | case2 r =>
    rw [takeComment] at h
    obtain ⟨⟨taken', rest'⟩, hr, heq⟩ := Option.map_eq_some_iff.mp h
    cases heq
    obtain ⟨inside, rfl, hinside⟩ := exists_of_closeComment hr
    exact .block hinside
  | case3 _ h₁ h₂ =>
    rw [takeComment_eq_none h₁ h₂] at h
    cases h

/-- Where no comment is taken none stands. -/
theorem not_isComment_of_takeComment (h : takeComment (taken ++ rest) = none) :
    ¬IsComment rest taken := by
  intro hcomment
  cases hcomment with
  | line => cases h
  | @block inside =>
    have hnone : closeComment ((inside ++ ['*', '/']) ++ rest) = none :=
      Option.map_eq_none_iff.mp h
    exact closeComment_eq_none_iff.mp hnone ⟨inside, rest, rfl⟩

/-! ### What is taken -/

/-- What leaves no lexeme may be passed over. -/
theorem skipped_of_take (h : (take c r).lexeme = none) :
    Skipped (take c r).rest (take c r).taken := by
  unfold take at h ⊢
  split at h
  · rename_i taken rest hcomment
    have hskipped : Skipped rest (taken ++ []) :=
      .comment (isComment_of_takeComment hcomment) .nil
    rw [List.append_nil] at hskipped
    simpa only [hcomment] using hskipped
  · rename_i hcomment
    split at h
    · rename_i hc
      simp only [hc, if_true]
      refine .of_blank (List.forall_mem_cons.mpr ⟨hc, fun d hd => ?_⟩)
      exact List.mem_takeWhile_imp hd
    · split at h
      · cases h
      · split at h
        · cases h
        · split at h
          · cases h
          · split at h <;> cases h

/-- A lexeme is neither blank nor a comment. -/
theorem of_lexeme_take (h : (take c r).lexeme = some k) :
    takeComment (c :: r) = none ∧ Text.isBlank c = false := by
  cases hc : Text.isBlank c with
  | true =>
    rw [take_of_isBlank hc] at h
    cases h
  | false =>
    refine ⟨?_, rfl⟩
    unfold take at h
    split at h
    · cases h
    · assumption

theorem text_ofMark (c : Char) : (ofMark c).text.toList = [c] := by
  unfold ofMark
  split <;> first | rfl | exact String.toList_singleton _

/-- Takes a word, a number or a mark. -/
def takePlain (c : Char) (r : List Char) : Cut :=
  if startsWord c then
    ⟨some (word (String.ofList (c :: r.takeWhile continuesWord))),
      c :: r.takeWhile continuesWord, r.dropWhile continuesWord⟩
  else if c.isDigit then
    ⟨some (number (String.ofList (c :: r.takeWhile Char.isDigit))),
      c :: r.takeWhile Char.isDigit, r.dropWhile Char.isDigit⟩
  else takeMark c r

/-- What is taken where neither a blank nor a comment stands. -/
theorem take_of_solid (hcomment : takeComment (c :: r) = none) (hc : Text.isBlank c = false) :
    take c r = match takeMove (c :: r) with
      | some (d, rest) => ⟨some (move d), d.call.toList, rest⟩
      | none => takePlain c r := by
  unfold take
  rw [hcomment, hc]
  rfl

/-- **The characters that are taken spell the lexeme.** -/
theorem text_of_take (h : (take c r).lexeme = some k) : k.text.toList = (take c r).taken := by
  obtain ⟨hcomment, hblank⟩ := of_lexeme_take h
  rw [take_of_solid hcomment hblank] at h ⊢
  cases hmove : takeMove (c :: r) with
  | some move =>
    rw [hmove] at h
    cases h
    rfl
  | none =>
    simp only [hmove] at h ⊢
    unfold takePlain at h ⊢
    split at h
    · rename_i hword
      rw [if_pos hword]
      cases h
      exact String.toList_ofList
    · rename_i hword
      rw [if_neg hword]
      split at h
      · rename_i hdigit
        rw [if_pos hdigit]
        cases h
        exact String.toList_ofList
      · rename_i hdigit
        rw [if_neg hdigit]
        fun_cases takeMark c r with
        | case1 rest =>
          cases h
          rfl
        | case2 _ _ hmark =>
          rw [takeMark_of_ne hmark] at h
          cases h
          exact text_ofMark c

end Lexeme

/-! ### Parts -/

/-- A token, and what stands between it and the token in front of it. -/
structure Part where
  gap : List Char
  token : Token

/-- Where a token begins. -/
def Token.place (t : Token) : Place := ⟨t.line, t.column⟩

@[simp] theorem Token.place_placed (k : Lexeme) (p : Place) : (placed k p).place = p := rfl

namespace Part

/-- The characters of the token. -/
def spelling (part : Part) : List Char := part.token.lexeme.text.toList

/-- The characters of a part. -/
def text (part : Part) : List Char := part.gap ++ part.spelling

/-- **How a part stands in a text**, with `before` in front of it and `later` behind it: the
token begins behind the gap, the gap is as much as may be passed over, and a token that is
spelled with no character has nothing behind it. -/
structure Stands (before later : List Char) (part : Part) : Prop where
  place_eq : part.token.place = Place.behind (before ++ part.gap)
  skipped : Skipped (part.spelling ++ later) part.gap
  longest : ∀ more rest, part.spelling ++ later = more ++ rest → Skipped rest more → more = []
  at_end : part.spelling = [] → later = []

end Part

/-- **Parts that cover a text.** -/
structure Covers (cs : List Char) (parts : List Part) : Prop where
  text_eq : parts.flatMap Part.text = cs
  stands : ∀ front part back, parts = front ++ part :: back →
    part.Stands (front.flatMap Part.text) (back.flatMap Part.text)

/-- The parts of a text that is come to at a place, with `gap` behind the last token. -/
def partsFrom (p : Place) (gap : List Char) : List Char → List Part
  | [] => [⟨gap, .placed .finish p⟩]
  | c :: r =>
    let cut := Lexeme.take c r
    match cut.lexeme with
    | some k => ⟨gap, .placed k p⟩ :: partsFrom (p.after cut.taken) [] cut.rest
    | none => partsFrom (p.after cut.taken) (gap ++ cut.taken) cut.rest
termination_by cs => cs.length
decreasing_by all_goals exact Lexeme.length_rest_take c r

section Parts

open Lexeme

theorem partsFrom_nil (p : Place) (gap : List Char) :
    partsFrom p gap [] = [⟨gap, .placed .finish p⟩] := by
  rw [partsFrom]

theorem partsFrom_of_some (h : (take c r).lexeme = some k) (p : Place) (gap : List Char) :
    partsFrom p gap (c :: r) =
      ⟨gap, .placed k p⟩ :: partsFrom (p.after (take c r).taken) [] (take c r).rest := by
  rw [partsFrom]
  simp only [h]

theorem partsFrom_of_none (h : (take c r).lexeme = none) (p : Place) (gap : List Char) :
    partsFrom p gap (c :: r) =
      partsFrom (p.after (take c r).taken) (gap ++ (take c r).taken) (take c r).rest := by
  rw [partsFrom]
  simp only [h]

theorem Token.scanFrom_of_some (h : (take c r).lexeme = some k) (p : Place) :
    scanFrom p (c :: r) = .placed k p :: scanFrom (p.after (take c r).taken) (take c r).rest := by
  rw [scanFrom_cons, h]
  rfl

theorem Token.scanFrom_of_none (h : (take c r).lexeme = none) (p : Place) :
    scanFrom p (c :: r) = scanFrom (p.after (take c r).taken) (take c r).rest := by
  rw [scanFrom_cons, h]
  rfl

/-- The tokens of a text are those of its parts. -/
theorem map_token_partsFrom (p : Place) (gap cs : List Char) :
    (partsFrom p gap cs).map Part.token = Token.scanFrom p cs := by
  induction cs using take_induction generalizing p gap with
  | nil =>
    rw [partsFrom_nil, Token.scanFrom]
    rfl
  | cons c r ih _ =>
    cases hk : (take c r).lexeme with
    | none => rw [partsFrom_of_none hk, Token.scanFrom_of_none hk, ih]
    | some k => rw [partsFrom_of_some hk, Token.scanFrom_of_some hk, List.map_cons, ih]

/-- Parts put together are the text. -/
theorem flatMap_text_partsFrom (p : Place) (gap cs : List Char) :
    (partsFrom p gap cs).flatMap Part.text = gap ++ cs := by
  induction cs using take_induction generalizing p gap with
  | nil =>
    rw [partsFrom_nil, List.flatMap_singleton]
    rfl
  | cons c r ih _ =>
    cases hk : (take c r).lexeme with
    | none => rw [partsFrom_of_none hk, ih, List.append_assoc, take_append]
    | some k =>
      rw [partsFrom_of_some hk, List.flatMap_cons, ih, List.nil_append, Part.text, Part.spelling,
        List.append_assoc]
      change gap ++ (k.text.toList ++ (take c r).rest) = _
      rw [text_of_take hk, take_append]

/-- Nothing may be passed over where a lexeme is taken. -/
theorem eq_nil_of_skipped (h : (take c r).lexeme = some k) (heq : c :: r = more ++ rest)
    (hskipped : Skipped rest more) : more = [] := by
  obtain ⟨hcomment, hblank⟩ := of_lexeme_take h
  cases hskipped with
  | nil => rfl
  | blank hc _ =>
    rw [(List.cons_eq_cons.mp heq).1, hc] at hblank
    cases hblank
  | comment hmore _ =>
    rw [heq, List.append_assoc] at hcomment
    exact absurd hmore (not_isComment_of_takeComment hcomment)

/-- **Each part stands where it has been found.** -/
theorem stands_partsFrom {front back : List Part} {part : Part} (hgap : Skipped cs gap)
    (hp : p = Place.behind (before ++ gap)) (heq : partsFrom p gap cs = front ++ part :: back) :
    part.Stands (before ++ front.flatMap Part.text) (back.flatMap Part.text) := by
  induction cs using take_induction generalizing p gap before front with
  | nil =>
    rw [partsFrom_nil] at heq
    obtain ⟨rfl, rfl, rfl⟩ : front = [] ∧ part = ⟨gap, .placed .finish p⟩ ∧ back = [] := by
      cases front with
      | nil => simpa [eq_comm] using heq
      | cons => simp at heq
    refine ⟨by simpa using hp, hgap, fun more rest hmore _ => ?_, fun _ => rfl⟩
    exact (List.append_eq_nil_iff.mp hmore.symm).1
  | cons c r ih _ =>
    have happ := take_append c r
    cases hk : (take c r).lexeme with
    | none =>
      -- what is passed over belongs to the gap, and is still in front of the same part
      rw [partsFrom_of_none hk] at heq
      refine ih ?_ ?_ heq
      · rw [← happ] at hgap
        exact hgap.append (skipped_of_take hk)
      · rw [hp, Place.after_behind, List.append_assoc]
    | some k =>
      rw [partsFrom_of_some hk] at heq
      have htext : k.text.toList ++ (take c r).rest = c :: r := by rw [text_of_take hk, happ]
      cases front with
      | nil =>
        obtain ⟨rfl, rfl⟩ := List.cons_eq_cons.mp heq
        have hlater := flatMap_text_partsFrom (p.after (take c r).taken) [] (take c r).rest
        rw [List.nil_append] at hlater
        rw [hlater]
        refine ⟨by simpa using hp, ?_, fun more rest hmore => ?_, fun hnil => ?_⟩
        · exact htext.symm ▸ hgap
        · exact eq_nil_of_skipped hk (htext.symm.trans hmore)
        · exact absurd ((text_of_take hk).symm.trans hnil) (take_ne_nil c r)
      | cons first front =>
        obtain ⟨rfl, hrest⟩ := List.cons_eq_cons.mp heq
        have hp' : p.after (take c r).taken =
            Place.behind (before ++ (gap ++ k.text.toList) ++ []) := by
          rw [hp, Place.after_behind, text_of_take hk, List.append_nil, List.append_assoc]
        rw [List.flatMap_cons, ← List.append_assoc]
        exact ih .nil hp' hrest

/-- **The parts of a text cover it.** -/
theorem covers_partsFrom (cs : List Char) : Covers cs (partsFrom {} [] cs) where
  text_eq := flatMap_text_partsFrom {} [] cs
  stands front part back heq := by
    have hstands : part.Stands ([] ++ front.flatMap Part.text) (back.flatMap Part.text) :=
      stands_partsFrom .nil rfl heq
    rwa [List.nil_append] at hstands

end Parts

/-! ### Tokens in their order -/

namespace Token

open Lexeme

/-- No token stands in front of the place at which the text begins. -/
theorem eq_or_before_of_mem_scanFrom {t : Token} (ht : t ∈ scanFrom p cs) :
    t.place = p ∨ p.Before t.place := by
  induction cs using take_induction generalizing p with
  | nil =>
    rw [scanFrom, List.mem_singleton] at ht
    rw [ht]
    exact Or.inl rfl
  | cons c r ih _ =>
    have hstep := Place.before_after p (take_ne_nil c r)
    have hrest : t ∈ scanFrom (p.after (take c r).taken) (take c r).rest →
        t.place = p ∨ p.Before t.place := fun hmem => by
      rcases ih hmem with h | h
      · exact Or.inr (h ▸ hstep)
      · exact Or.inr (hstep.trans h)
    cases hk : (take c r).lexeme with
    | none => exact hrest (scanFrom_of_none hk p ▸ ht)
    | some k =>
      rw [scanFrom_of_some hk, List.mem_cons] at ht
      rcases ht with rfl | ht
      · exact Or.inl rfl
      · exact hrest ht

/-- **Tokens stand one behind the other.** -/
theorem pairwise_scanFrom (p : Place) (cs : List Char) :
    (scanFrom p cs).Pairwise fun t u => t.place.Before u.place := by
  induction cs using take_induction generalizing p with
  | nil =>
    rw [scanFrom]
    exact List.pairwise_singleton _ _
  | cons c r ih _ =>
    cases hk : (take c r).lexeme with
    | none =>
      rw [scanFrom_of_none hk]
      exact ih _
    | some k =>
      rw [scanFrom_of_some hk]
      refine List.pairwise_cons.mpr ⟨fun t ht => ?_, ih _⟩
      have hstep := Place.before_after p (take_ne_nil c r)
      rcases eq_or_before_of_mem_scanFrom ht with h | h
      · rwa [place_placed, h]
      · exact hstep.trans h

/-- The end of a text comes last, and behind all of the text. -/
theorem getLast?_scanFrom (p : Place) (cs : List Char) :
    (scanFrom p cs).getLast? = some (.placed .finish (p.after cs)) := by
  induction cs using take_induction generalizing p with
  | nil =>
    rw [scanFrom]
    rfl
  | cons c r ih _ =>
    have hafter : (p.after (take c r).taken).after (take c r).rest = p.after (c :: r) := by
      rw [← Place.after_append, take_append]
    cases hk : (take c r).lexeme with
    | none => rw [scanFrom_of_none hk, ih, hafter]
    | some k => rw [scanFrom_of_some hk, List.getLast?_cons, ih, hafter]; rfl

end Token

namespace Covers

variable {parts front back : List Part} {part : Part}

/-- **Each token is spelled where it stands.** -/
theorem exists_spelling (h : Covers cs parts) {t : Token} (ht : t ∈ parts.map Part.token) :
    ∃ before later, cs = before ++ t.lexeme.text.toList ++ later ∧
      t.place = Place.behind before := by
  obtain ⟨part, hpart, rfl⟩ := List.mem_map.mp ht
  obtain ⟨front, back, rfl⟩ := List.append_of_mem hpart
  refine ⟨front.flatMap Part.text ++ part.gap, back.flatMap Part.text, ?_,
    (h.stands front part back rfl).place_eq⟩
  rw [← h.text_eq, List.flatMap_append, List.flatMap_cons, Part.text, Part.spelling]
  simp only [List.append_assoc]

/-- **No token begins within a gap.** -/
theorem place_ne (h : Covers cs parts)
    (hpairs : (parts.map Part.token).Pairwise fun t u => t.place.Before u.place)
    (heq : parts = front ++ part :: back) {a b : List Char} (hgap : part.gap = a ++ b)
    (hb : b ≠ []) {t : Token} (ht : t ∈ parts.map Part.token) :
    t.place ≠ Place.behind (front.flatMap Part.text ++ a) := by
  have hbefore : (Place.behind (front.flatMap Part.text ++ a)).Before part.token.place := by
    rw [(h.stands front part back heq).place_eq, hgap, ← List.append_assoc]
    exact Place.behind_before_append _ hb
  obtain ⟨other, hother, rfl⟩ := List.mem_map.mp ht
  rw [heq, List.map_append, List.map_cons] at hpairs
  rw [heq, List.mem_append, List.mem_cons] at hother
  rcases hother with hfront | rfl | hback
  · -- a token in front of the part is spelled with some character, since the gap is behind it
    obtain ⟨first, second, rfl⟩ := List.append_of_mem hfront
    have hstands := h.stands first other (second ++ part :: back) (by simp [heq])
    have hspelled : other.spelling ≠ [] := fun hnil => by
      have hnone := hstands.at_end hnil
      simp [Part.text, hgap, hb] at hnone
    have hfar : (first ++ other :: second).flatMap Part.text ++ a =
        first.flatMap Part.text ++ other.gap ++
          (other.spelling ++ second.flatMap Part.text ++ a) := by
      simp only [List.flatMap_append, List.flatMap_cons, Part.text, List.append_assoc]
    rw [hstands.place_eq, hfar]
    exact (Place.behind_before_append _ (by simp [hspelled])).ne
  · exact hbefore.ne.symm
  · have hpair := (List.pairwise_cons.mp (List.pairwise_append.mp hpairs).2.1).1
    exact (hbefore.trans (hpair _ (List.mem_map_of_mem hback))).ne.symm

end Covers

namespace Script

/-- **The tokens of a script cover it.** They are the tokens of parts that cover the text,
they stand one behind the other, each is spelled where it stands, none begins within a gap,
and the end comes last, behind all of the text, and only there. -/
theorem tokens_cover (source : String) :
    ∃ parts : List Part, parts.map Part.token = tokens source ∧
      Covers (Text.unifyLineEnds source.toList) parts ∧
      ((tokens source).Pairwise fun t u => t.place.Before u.place) ∧
      (∀ t ∈ tokens source, ∃ before later,
        Text.unifyLineEnds source.toList = before ++ t.lexeme.text.toList ++ later ∧
          t.place = Place.behind before) ∧
      (∀ front part back, parts = front ++ part :: back → ∀ a b, part.gap = a ++ b → b ≠ [] →
        ∀ t ∈ tokens source, t.place ≠ Place.behind (front.flatMap Part.text ++ a)) ∧
      ∃ body, (∀ t ∈ body, t.lexeme ≠ .finish) ∧ tokens source =
        body ++ [.placed .finish (Place.behind (Text.unifyLineEnds source.toList))] := by
  unfold tokens
  generalize Text.unifyLineEnds source.toList = cs
  have hcovers := covers_partsFrom cs
  have htokens := map_token_partsFrom {} [] cs
  have hpairs := Token.pairwise_scanFrom {} cs
  refine ⟨partsFrom {} [] cs, htokens, hcovers, hpairs, fun t ht => ?_, ?_, ?_⟩
  · rw [← htokens] at ht
    exact hcovers.exists_spelling ht
  · intro front part back heq a b hgap hb t ht
    rw [← htokens] at hpairs ht
    exact hcovers.place_ne hpairs heq hgap hb ht
  · obtain ⟨body, e, heq, -, hbody⟩ := Token.scanFrom_eq {} cs
    have hlast := Token.getLast?_scanFrom {} cs
    rw [heq, List.getLast?_concat, Place.after_eq_behind] at hlast
    exact ⟨body, hbody, by rw [heq, Option.some.inj hlast]⟩

end Script

end ScriptedMaze
