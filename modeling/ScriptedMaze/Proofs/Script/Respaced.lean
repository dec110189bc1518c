import ScriptedMaze.Proofs.Script.Columns
import ScriptedMaze.Proofs.Script.Covered

/-!
# Blanks and comments mean nothing

Where a gap between two tokens stands does not matter, nor what it is made of; only that there
is one, and how many line feeds are in it. So a text is **respaced** (`respaced`): each gap
becomes as many line feeds as it holds, or one space if it holds none. A script that is respaced
has the same tokens on the same lines, and so the same tree, or the same fault
(`Script.tree_respacedScript`).

No two tokens run into each other, since a gap always leaves a blank, and neither a word nor a
number goes on over one. What a token needs behind it is harder where a slash is a token by
itself: it opens no comment because the text nowhere closes one, and the respaced text could close
one that the text does not. It cannot (`infix_of_infix_respaced`), as it holds no word that is not
in the text already, blanks apart.
-/

namespace ScriptedMaze

variable {p q : Place} {c : Char} {k : Lexeme} {d : Direction} {r cs rest gap t w : List Char}

/-! ### Respaced texts -/

/-- What a gap is replaced with. -/
def spacing (gap : List Char) : List Char :=
  if gap = [] then [] else if '\n' ∈ gap then List.replicate (gap.count '\n') '\n' else [' ']

/-- The characters of a part, with its gap replaced. -/
def Part.respaced (part : Part) : List Char := spacing part.gap ++ part.spelling

/-- A text with its gaps replaced, where `gap` stands behind the last token. -/
def respacedBehind (gap cs : List Char) : List Char :=
  (partsFrom {} gap cs).flatMap Part.respaced

/-- A text with its gaps replaced. -/
def respaced (cs : List Char) : List Char := respacedBehind [] cs

theorem eq_of_mem_spacing (hc : c ∈ spacing gap) : c = '\n' ∨ c = ' ' := by
  unfold spacing at hc
  split at hc
  · cases hc
  · split at hc
    · exact Or.inl (List.eq_of_mem_replicate hc)
    · exact Or.inr (List.mem_singleton.mp hc)

theorem isBlank_of_mem_spacing (hc : c ∈ spacing gap) : Text.isBlank c = true := by
  rcases eq_of_mem_spacing hc with rfl | rfl <;> decide

theorem count_spacing (gap : List Char) : (spacing gap).count '\n' = gap.count '\n' := by
  unfold spacing
  split
  · rename_i h
    rw [h]
  · split
    · exact List.count_replicate_self
    · rename_i h
      rw [List.count_eq_zero_of_not_mem h]
      rfl

theorem line_after_spacing (p : Place) (gap : List Char) :
    (p.after (spacing gap)).line = p.line + gap.count '\n' := by
  rw [Place.line_after, count_spacing]

theorem spacing_ne_nil (h : gap ≠ []) : spacing gap ≠ [] := by
  unfold spacing
  rw [if_neg h]
  split
  · rename_i hmem
    exact fun hnil => absurd (List.count_pos_iff.mpr hmem) (by
      rw [List.replicate_eq_nil_iff] at hnil
      omega)
  · exact List.cons_ne_nil _ _

section Respaced

open Lexeme

/-- Where a text stands does not matter. -/
theorem flatMap_respaced_partsFrom (p q : Place) (gap cs : List Char) :
    (partsFrom p gap cs).flatMap Part.respaced = (partsFrom q gap cs).flatMap Part.respaced := by
  induction cs using take_induction generalizing p q gap with
  | nil =>
    rw [partsFrom_nil, partsFrom_nil]
    rfl
  | cons c r ih _ =>
    cases hk : (take c r).lexeme with
    | none => rw [partsFrom_of_none hk, partsFrom_of_none hk, ih]
    | some k =>
      rw [partsFrom_of_some hk, partsFrom_of_some hk, List.flatMap_cons, List.flatMap_cons, ih]
      rfl

theorem respacedBehind_nil (gap : List Char) : respacedBehind gap [] = spacing gap := by
  rw [respacedBehind, partsFrom_nil, List.flatMap_singleton]
  exact List.append_nil _

theorem respacedBehind_of_none (h : (take c r).lexeme = none) (gap : List Char) :
    respacedBehind gap (c :: r) = respacedBehind (gap ++ (take c r).taken) (take c r).rest := by
  rw [respacedBehind, partsFrom_of_none h]
  exact flatMap_respaced_partsFrom _ _ _ _

theorem respacedBehind_of_some (h : (take c r).lexeme = some k) (gap : List Char) :
    respacedBehind gap (c :: r) =
      spacing gap ++ ((take c r).taken ++ respaced (take c r).rest) := by
  rw [respacedBehind, partsFrom_of_some h, List.flatMap_cons, Part.respaced, Part.spelling,
    List.append_assoc]
  congr 2
  · exact text_of_take h
  · exact flatMap_respaced_partsFrom _ _ _ _

theorem respaced_of_some (h : (take c r).lexeme = some k) :
    respaced (c :: r) = (take c r).taken ++ respaced (take c r).rest :=
  respacedBehind_of_some h []

/-- What a gap is replaced with begins with a blank. -/
theorem exists_blank_of_spacing (h : gap ≠ []) (cs : List Char) :
    ∃ b tail, spacing gap ++ cs = b :: tail ∧ Text.isBlank b = true := by
  obtain ⟨b, bs, hb⟩ := List.exists_cons_of_ne_nil (spacing_ne_nil h)
  refine ⟨b, bs ++ cs, by rw [hb]; rfl, ?_⟩
  exact isBlank_of_mem_spacing (hb ▸ List.mem_cons_self)

/-- Behind a gap a respaced text begins with a blank. -/
theorem exists_blank_of_gap (h : gap ≠ []) (cs : List Char) :
    ∃ b tail, respacedBehind gap cs = b :: tail ∧ Text.isBlank b = true := by
  induction cs using take_induction generalizing gap with
  | nil =>
    have hnil := exists_blank_of_spacing h []
    rwa [List.append_nil, ← respacedBehind_nil] at hnil
  | cons c r ih _ =>
    cases hk : (take c r).lexeme with
    | none =>
      rw [respacedBehind_of_none hk]
      exact ih (by simp [h])
    | some k =>
      rw [respacedBehind_of_some hk]
      exact exists_blank_of_spacing h _

/-- Respacing puts nothing into a text but line feeds and spaces. -/
theorem mem_respacedBehind (hc : c ∈ respacedBehind gap cs) : c = '\n' ∨ c = ' ' ∨ c ∈ cs := by
  induction cs using take_induction generalizing gap with
  | nil =>
    rw [respacedBehind_nil] at hc
    exact (eq_of_mem_spacing hc).imp_right Or.inl
  | cons d r ih _ =>
    have hrest : c ∈ (take d r).rest → c ∈ d :: r := fun hmem =>
      (rest_take_suffix d r).subset hmem
    cases hk : (take d r).lexeme with
    | none =>
      rw [respacedBehind_of_none hk] at hc
      exact (ih hc).imp_right (Or.imp_right hrest)
    | some k =>
      rw [respacedBehind_of_some hk, List.mem_append, List.mem_append] at hc
      rcases hc with hc | hc | hc
      · exact (eq_of_mem_spacing hc).imp_right Or.inl
      · exact Or.inr (Or.inr (taken_take_subset d r hc))
      · exact (ih hc).imp_right (Or.imp_right hrest)

/-- What is passed over begins with a blank or a slash. -/
theorem isBlank_or_eq_slash (h : (take c r).lexeme = none) :
    Text.isBlank c = true ∨ c = '/' := by
  have hhead : (take c r).taken.head? = some c := by
    have happ := congrArg List.head? (take_append c r)
    rwa [List.head?_append_of_ne_nil _ (take_ne_nil c r)] at happ
  have hskipped := skipped_of_take h
  cases hgap : (take c r).taken with
  | nil => exact absurd hgap (take_ne_nil c r)
  | cons d gap =>
    rw [hgap] at hskipped hhead
    obtain rfl : d = c := Option.some.inj hhead
    generalize hall : d :: gap = all at hskipped
    cases hskipped with
    | nil => cases hall
    | blank hc _ => exact Or.inl ((List.cons_eq_cons.mp hall).1 ▸ hc)
    | comment hcomment _ =>
      cases hcomment with
      | line => exact Or.inr (List.cons_eq_cons.mp hall).1
      | block => exact Or.inr (List.cons_eq_cons.mp hall).1

/-! ### What a respaced text begins with -/

/-- What texts begin with, behind the same characters. -/
theorem prefix_append_of {a b : List Char}
    (h : ∀ v, v <:+ w → v <+: a → v <+: b) (hw : w <+: t ++ a) : w <+: t ++ b := by
  induction t generalizing w with
  | nil => exact h w List.suffix_rfl hw
  | cons c t ih =>
    cases w with
    | nil => exact List.nil_prefix
    | cons d w =>
      obtain ⟨rfl, htail⟩ := List.cons_prefix_cons.mp hw
      refine List.cons_prefix_cons.mpr ⟨rfl, ih (fun v hv => ?_) htail⟩
      exact h v (hv.trans (List.suffix_cons d w))

/-- What stands in texts, behind the same characters. -/
theorem infix_append_of {a b : List Char} (hfront : ∀ v, v <:+ w → v <+: a → v <+: b)
    (hinside : w <:+: a → w <:+: b) (hw : w <:+: t ++ a) : w <:+: t ++ b := by
  induction t with
  | nil => exact hinside hw
  | cons c t ih =>
    rcases List.infix_cons_iff.mp hw with hw | hw
    · exact (prefix_append_of (t := c :: t) hfront hw).isInfix
    · exact List.infix_cons_iff.mpr (Or.inr (ih hw))

/-- **A respaced text begins with no other word** than the text does. -/
theorem prefix_of_prefix_respaced (hw : ∀ c ∈ w, Text.isBlank c = false) (cs : List Char)
    (h : w <+: respaced cs) : w <+: cs := by
  induction cs using take_induction generalizing w with
  | nil => rwa [respaced, respacedBehind_nil] at h
  | cons c r ih _ =>
    cases hk : (take c r).lexeme with
    | none =>
      -- the gap is replaced with a blank, and none is in the word
      rw [respaced, respacedBehind_of_none hk, List.nil_append] at h
      obtain ⟨b, tail, heq, hb⟩ := exists_blank_of_gap (take_ne_nil c r) (take c r).rest
      rw [heq] at h
      cases w with
      | nil => exact List.nil_prefix
      | cons d w =>
        rw [(List.cons_prefix_cons.mp h).1.symm, hw d List.mem_cons_self] at hb
        cases hb
    | some k =>
      rw [respaced_of_some hk] at h
      conv_rhs => rw [← take_append c r]
      exact prefix_append_of (fun v hv => ih fun c hc => hw c (hv.subset hc)) h

/-- The words that a text begins with stay, unless a slash is in them. -/
theorem prefix_respaced_of_prefix (hw : ∀ c ∈ w, Text.isBlank c = false ∧ c ≠ '/')
    (cs : List Char) (h : w <+: cs) : w <+: respaced cs := by
  induction cs using take_induction generalizing w with
  | nil => rwa [respaced, respacedBehind_nil]
  | cons c r ih _ =>
    cases hk : (take c r).lexeme with
    | none =>
      cases w with
      | nil => exact List.nil_prefix
      | cons d w =>
        obtain ⟨hblank, hslash⟩ := hw d List.mem_cons_self
        obtain rfl := (List.cons_prefix_cons.mp h).1
        rcases isBlank_or_eq_slash hk with hd | hd
        · rw [hd] at hblank
          cases hblank
        · exact absurd hd hslash
    | some k =>
      rw [respaced_of_some hk]
      rw [← take_append c r] at h
      exact prefix_append_of (fun v hv => ih fun c hc => hw c (hv.subset hc)) h

/-- A respaced text begins with no other character than the text, blanks apart. -/
theorem exists_cons_of_respaced (hc : Text.isBlank c = false) (h : respaced cs = c :: t) :
    ∃ rest, cs = c :: rest := by
  have hprefix : [c] <+: cs :=
    prefix_of_prefix_respaced (by simpa using hc) cs (h ▸ List.prefix_append [c] t)
  obtain ⟨rest, heq⟩ := hprefix
  exact ⟨rest, heq.symm⟩

/-- Blanks in front of a text hold no part of a word. -/
theorem infix_of_blank_append {b : List Char} (hb : ∀ c ∈ b, Text.isBlank c = true)
    (hc : Text.isBlank c = false) (h : c :: w <:+: b ++ cs) : c :: w <:+: cs := by
  induction b with
  | nil => exact h
  | cons d b ih =>
    obtain ⟨hd, hb⟩ := List.forall_mem_cons.mp hb
    rcases List.infix_cons_iff.mp h with h | h
    · rw [(List.cons_prefix_cons.mp h).1, hd] at hc
      cases hc
    · exact ih hb h

/-- **No comment is closed by respacing.** -/
theorem infix_of_infix_respaced (h : ['*', '/'] <:+: respacedBehind gap cs) :
    ['*', '/'] <:+: cs := by
  induction cs using take_induction generalizing gap with
  | nil =>
    rw [respacedBehind_nil, ← List.append_nil (spacing gap)] at h
    exact infix_of_blank_append (fun _ => isBlank_of_mem_spacing) (by decide) h
  | cons c r ih _ =>
    cases hk : (take c r).lexeme with
    | none =>
      rw [respacedBehind_of_none hk] at h
      exact (ih h).trans (rest_take_suffix c r).isInfix
    | some k =>
      rw [respacedBehind_of_some hk] at h
      have htext := infix_of_blank_append (fun _ => isBlank_of_mem_spacing) (by decide) h
      conv_rhs => rw [← take_append c r]
      refine infix_append_of (fun v hv => ?_) ih htext
      refine prefix_of_prefix_respaced (fun d hd => ?_) _
      have hmem := hv.subset hd
      simp only [List.mem_cons, List.not_mem_nil, or_false] at hmem
      rcases hmem with rfl | rfl <;> decide

/-! ### What is taken from a respaced text -/

/-- The move that a text begins with. -/
theorem takeMove_eq (cs : List Char) :
    takeMove cs = (Direction.all.find? fun d => d.call.toList.isPrefixOf cs).map
      fun d => (d, cs.drop d.call.length) := by
  unfold takeMove
  generalize Direction.all = ds
  induction ds with
  | nil => rfl
  | cons d ds ih =>
    rw [List.findSome?_cons, List.find?_cons]
    cases d.call.toList.isPrefixOf cs
    · exact ih
    · rfl

/-- No blank and no slash is in the call of a move. -/
theorem call_plain (d : Direction) :
    ∀ c ∈ d.call.toList, Text.isBlank c = false ∧ c ≠ '/' := by
  -- computed over the call: a decision could as well go over all the characters there are
  have hall : (d.call.toList.all fun c => !Text.isBlank c && c != '/') = true := by
    cases d <;> rfl
  intro c hc
  have hcall := List.all_eq_true.mp hall c hc
  rwa [Bool.and_eq_true, Bool.not_eq_true', bne_iff_ne] at hcall

/-- **A respaced text begins with the same move**, if it begins with one. -/
theorem map_takeMove_respaced (t rest : List Char) :
    (takeMove (t ++ respaced rest)).map Prod.fst = (takeMove (t ++ rest)).map Prod.fst := by
  have hfind : (Direction.all.find? fun d => d.call.toList.isPrefixOf (t ++ respaced rest)) =
      Direction.all.find? fun d => d.call.toList.isPrefixOf (t ++ rest) := by
    congr 1
    funext d
    have hplain := call_plain d
    rw [Bool.eq_iff_iff, List.isPrefixOf_iff_prefix, List.isPrefixOf_iff_prefix]
    constructor
    · exact prefix_append_of fun v hv =>
        prefix_of_prefix_respaced (fun c hc => (hplain c (hv.subset hc)).1) rest
    · exact prefix_append_of fun v hv =>
        prefix_respaced_of_prefix (fun c hc => hplain c (hv.subset hc)) rest
  rw [takeMove_eq, takeMove_eq, hfind, Option.map_map, Option.map_map]
  rfl

/-- A move is taken from a respaced text as it is from the text. -/
theorem takeMove_respaced (h : takeMove (c :: r) = some (d, rest)) :
    ∃ t, d.call.toList = c :: t ∧
      takeMove (c :: (t ++ respaced rest)) = some (d, respaced rest) := by
  have happ := takeMove_append h
  cases hcall : d.call.toList with
  | nil => exact absurd hcall (call_toList_ne_nil d)
  | cons b t =>
    rw [hcall, List.cons_append] at happ
    obtain ⟨rfl, rfl⟩ := List.cons_eq_cons.mp happ
    -- the same move is found, and so it leaves the same
    have hsame := map_takeMove_respaced (b :: t) rest
    rw [List.cons_append, List.cons_append, h] at hsame
    obtain ⟨⟨d', rest'⟩, hmove, hd⟩ := Option.map_eq_some_iff.mp hsame
    obtain rfl : d' = d := hd
    have happ' := takeMove_append hmove
    rw [hcall, List.cons_append] at happ'
    rw [List.append_cancel_left (List.cons_eq_cons.mp happ').2] at hmove
    exact ⟨t, rfl, hmove⟩

/-- No comment begins in a respaced text where none begins in the text. -/
theorem takeComment_respaced (h : takeComment ('/' :: r) = none) :
    takeComment ('/' :: respaced r) = none := by
  cases hr : respaced r with
  | nil => rfl
  | cons d y =>
    by_cases hslash : d = '/'
    · subst hslash
      obtain ⟨rest, rfl⟩ := exists_cons_of_respaced (by decide) hr
      cases h
    · by_cases hstar : d = '*'
      · subst hstar
        obtain ⟨x, rfl⟩ := exists_cons_of_respaced (by decide) hr
        -- the text does not close what would be a comment, and so the star is a token as well
        have htake : take '*' x = ⟨some (.other '*'), ['*'], x⟩ := rfl
        rw [respaced_of_some (congrArg Cut.lexeme htake), htake] at hr
        obtain rfl : respaced x = y := (List.cons_eq_cons.mp hr).2
        have hopen : closeComment x = none := Option.map_eq_none_iff.mp h
        refine Option.map_eq_none_iff.mpr (closeComment_eq_none_iff.mpr fun hclosed => ?_)
        exact closeComment_eq_none_iff.mp hopen (infix_of_infix_respaced hclosed)
      · refine takeComment_eq_none (fun y' heq => ?_) fun y' heq => ?_
        · exact hslash (List.cons_eq_cons.mp (List.cons_eq_cons.mp heq).2).1
        · exact hstar (List.cons_eq_cons.mp (List.cons_eq_cons.mp heq).2).1

/-- Characters that a text begins with end where they do in the respaced text. -/
theorem takeWhile_respaced {f : Char → Bool} (hf : ∀ c, Text.isBlank c = true → f c = false)
    (r : List Char) :
    (r.takeWhile f ++ respaced (r.dropWhile f)).takeWhile f = r.takeWhile f ∧
      (r.takeWhile f ++ respaced (r.dropWhile f)).dropWhile f = respaced (r.dropWhile f) := by
  have hall : ∀ c ∈ r.takeWhile f, f c = true := fun c => List.mem_takeWhile_imp
  -- what stands behind is a blank or what has stood there, and stops the characters either way
  have hhead : ∀ c t, respaced (r.dropWhile f) = c :: t → f c = false := by
    intro c t heq
    cases hc : Text.isBlank c with
    | true => exact hf c hc
    | false =>
      obtain ⟨rest, hrest⟩ := exists_cons_of_respaced hc heq
      have hstop := List.head?_dropWhile_not f r
      rw [hrest] at hstop
      simpa using hstop
  rw [List.takeWhile_append_of_pos hall, List.dropWhile_append_of_pos hall]
  cases heq : respaced (r.dropWhile f) with
  | nil => simp
  | cons c t =>
    have hc := hhead c t heq
    rw [List.takeWhile_cons_of_neg (by simp [hc]), List.dropWhile_cons_of_neg (by simp [hc]),
      List.append_nil]
    exact ⟨rfl, rfl⟩

/-- A word, a number or a mark is taken from a respaced text as it is from the text. -/
theorem takePlain_respaced (c : Char) (r : List Char) :
    ∃ t, (takePlain c r).taken = c :: t ∧ r = t ++ (takePlain c r).rest ∧
      takePlain c (t ++ respaced (takePlain c r).rest) =
        { takePlain c r with rest := respaced (takePlain c r).rest } := by
  unfold takePlain
  split
  · obtain ⟨htake, hdrop⟩ := takeWhile_respaced (fun _ => Script.continuesWord_of_isBlank) r
    refine ⟨r.takeWhile continuesWord, rfl, List.takeWhile_append_dropWhile.symm, ?_⟩
    rw [htake, hdrop]
  · split
    · have hdigit : ∀ c, Text.isBlank c = true → c.isDigit = false := fun c hc => by
        have hword := Script.continuesWord_of_isBlank hc
        simp only [continuesWord, Char.isAlphanum, Bool.or_eq_false_iff] at hword
        exact hword.1.1.2
      obtain ⟨htake, hdrop⟩ := takeWhile_respaced hdigit r
      refine ⟨r.takeWhile Char.isDigit, rfl, List.takeWhile_append_dropWhile.symm, ?_⟩
      rw [htake, hdrop]
    · fun_cases takeMark c r with
      | case1 rest => exact ⟨['+'], rfl, rfl, rfl⟩
      | case2 _ _ hmark =>
        refine ⟨[], rfl, rfl, ?_⟩
        rw [List.nil_append, takeMark_of_ne fun r' hc heq => ?_]
        obtain ⟨rest, hrest⟩ := exists_cons_of_respaced (by decide) heq
        exact hmark rest hc hrest

/-- **The same is taken from a respaced text.** -/
theorem take_respaced (hk : (take c r).lexeme = some k) :
    ∃ t, (take c r).taken = c :: t ∧
      take c (t ++ respaced (take c r).rest) = ⟨some k, c :: t, respaced (take c r).rest⟩ := by
  obtain ⟨hcomment, hblank⟩ := of_lexeme_take hk
  have hother : c ≠ '/' → ∀ cs, takeComment (c :: cs) = none := fun hc cs =>
    takeComment_eq_none (fun _ heq => hc (List.cons_eq_cons.mp heq).1)
      fun _ heq => hc (List.cons_eq_cons.mp heq).1
  rw [take_of_solid hcomment hblank] at hk ⊢
  cases hmove : takeMove (c :: r) with
  | some move =>
    obtain ⟨d, rest⟩ := move
    rw [hmove] at hk
    cases hk
    obtain ⟨t, hcall, hmove'⟩ := takeMove_respaced hmove
    have hc : c ≠ '/' := (call_plain d c (hcall ▸ List.mem_cons_self)).2
    refine ⟨t, hcall, ?_⟩
    rw [take_of_solid (hother hc _) hblank, hmove']
    simp only [hcall]
  | none =>
    rw [hmove] at hk
    dsimp only at hk ⊢
    obtain ⟨t, htaken, hr, hplain⟩ := takePlain_respaced c r
    refine ⟨t, htaken, ?_⟩
    have hcomment' : takeComment (c :: (t ++ respaced (takePlain c r).rest)) = none := by
      by_cases hc : c = '/'
      · -- a slash that opens no comment is taken alone
        subst hc
        have hslash : takePlain '/' r = ⟨some (.other '/'), ['/'], r⟩ := rfl
        rw [hslash] at htaken ⊢
        obtain rfl : [] = t := (List.cons_eq_cons.mp htaken).2
        exact takeComment_respaced hcomment
      · exact hother hc _
    have hsame := map_takeMove_respaced (c :: t) (takePlain c r).rest
    rw [List.cons_append, List.cons_append, ← hr, hmove, Option.map_none,
      Option.map_eq_none_iff] at hsame
    rw [take_of_solid hcomment' hblank, hsame]
    simp only [hplain, hk, htaken]

end Respaced

/-! ### The tokens of a respaced text -/

namespace Token

open Lexeme

/-- Blanks in front of a text only move its place. -/
theorem scanFrom_blank_append {b : List Char} (hb : ∀ c ∈ b, Text.isBlank c = true) (p : Place)
    (cs : List Char) : scanFrom p (b ++ cs) = scanFrom (p.after b) cs := by
  induction b generalizing p with
  | nil => rfl
  | cons c b ih =>
    obtain ⟨hc, hb⟩ := List.forall_mem_cons.mp hb
    rw [List.cons_append, scanFrom_cons_of_isBlank hc, ih hb]
    rfl

/-- **A respaced text has the same tokens on the same lines.** -/
theorem map_spot_scanFrom_respaced (h : q.line = p.line + gap.count '\n') (cs : List Char) :
    (scanFrom p (respacedBehind gap cs)).map spot = (scanFrom q cs).map spot := by
  induction cs using take_induction generalizing p q gap with
  | nil =>
    rw [respacedBehind_nil, ← List.append_nil (spacing gap),
      scanFrom_blank_append fun _ => isBlank_of_mem_spacing, scanFrom, scanFrom]
    simp [spot, placed, line_after_spacing, h]
  | cons c r ih _ =>
    cases hk : (take c r).lexeme with
    | none =>
      rw [respacedBehind_of_none hk, scanFrom_of_none hk]
      refine ih ?_
      rw [Place.line_after, h, List.count_append, Nat.add_assoc]
    | some k =>
      obtain ⟨t, htaken, htake⟩ := take_respaced hk
      have hk' : (take c (t ++ respaced (take c r).rest)).lexeme = some k := by rw [htake]
      rw [respacedBehind_of_some hk, scanFrom_blank_append fun _ => isBlank_of_mem_spacing,
        scanFrom_of_some hk, htaken, List.cons_append, scanFrom_of_some hk', htake, List.map_cons,
        List.map_cons]
      congr 1
      · simp [spot, placed, line_after_spacing, h]
      · refine ih ?_
        rw [Place.line_after, Place.line_after, line_after_spacing, h]
        rfl

end Token

/-! ### Respaced scripts -/

namespace Script

/-- A script with its gaps replaced, and all its line ends line feeds. -/
def respacedScript (source : String) : String :=
  String.ofList (respaced (Text.unifyLineEnds source.toList))

/-- **Respacing changes nothing but columns.** -/
theorem map_spot_tokens_respacedScript (source : String) :
    (tokens (respacedScript source)).map Token.spot = (tokens source).map Token.spot := by
  have hreturn : '\r' ∉ respaced (Text.unifyLineEnds source.toList) := fun hmem => by
    rcases mem_respacedBehind hmem with h | h | h
    · cases h
    · cases h
    · exact Text.not_mem_unifyLineEnds _ h
  rw [tokens, tokens, respacedScript, String.toList_ofList, unifyLineEnds_of_not_mem hreturn]
  exact Token.map_spot_scanFrom_respaced rfl _

/-- **Blanks and comments mean nothing.** A script that is respaced has the same tokens on the
same lines, and so the same tree and the same moves, or the same fault. -/
theorem tree_respacedScript (source : String) :
    (tokens (respacedScript source)).map Token.spot = (tokens source).map Token.spot ∧
      ∀ limits : Limits, tree limits (respacedScript source) = tree limits source ∧
        (tree limits (respacedScript source) >>= Tree.unroll limits.expansions) =
          (tree limits source >>= Tree.unroll limits.expansions) := by
  have hspots := map_spot_tokens_respacedScript source
  refine ⟨hspots, fun limits => ?_⟩
  have htree : tree limits (respacedScript source) = tree limits source := by
    rw [tree, tree, ← Tree.ofTokens_bare, Token.map_bare_eq hspots, Tree.ofTokens_bare]
  exact ⟨htree, by rw [htree]⟩

end Script

end ScriptedMaze
