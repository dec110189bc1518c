import ScriptedMaze.Proofs.Script.Covered

/-!
# Where a forbidden text stands

A script is searched for what is forbidden before it is cut into tokens, and on the text as
it was given. Here the search is compared with its specification, and its lines with those of
the tokens.

* The search finds the first **offence** (`FirstOffence`): a forbidden word between characters
  that no word goes on with, or an arrow, with no offence in front of it
  (`Script.exists_firstOffence`).
* The lines of the tokens are counted on a text in which all line ends are line feeds. They are
  more than the line feeds of the given text by the **lone returns** (`Text.loneReturns`), the
  carriage returns with no line feed behind them (`Text.count_unifyLineEnds`).

So the line of an offence is its line among the tokens exactly if no lone return is in front of
it (`Script.line_eq_iff_of_forbidden`). A script whose lines end with carriage returns is told
line 1 for everything that is forbidden in it.
-/

namespace ScriptedMaze

variable {c : Char} {cs r before after : List Char} {text source : String} {n line : Nat}

/-! ### Line feeds in the place of line ends -/

namespace Text

/-- The carriage returns with no line feed behind them. -/
def loneReturns : List Char → Nat
  | [] => 0
  | c :: r => loneReturns r + if c = '\r' ∧ r.head? ≠ some '\n' then 1 else 0

/-- There is no lone return if each carriage return has a line feed behind it. -/
theorem loneReturns_eq_zero_iff :
    loneReturns cs = 0 ↔ ∀ a b, cs = a ++ '\r' :: b → b.head? = some '\n' := by
  induction cs with
  | nil => simp [loneReturns]
  | cons c r ih =>
    rw [loneReturns, Nat.add_eq_zero_iff, ih]
    constructor
    · rintro ⟨hrest, hhead⟩ a b heq
      cases a with
      | nil =>
        obtain ⟨rfl, rfl⟩ := List.cons_eq_cons.mp heq
        by_contra hne
        rw [if_pos ⟨rfl, hne⟩] at hhead
        cases hhead
      | cons a₀ a => exact hrest a b (List.cons_eq_cons.mp heq).2
    · refine fun h => ⟨fun a b heq => h (c :: a) b (by rw [heq, List.cons_append]), ?_⟩
      refine if_neg fun hc => hc.2 (h [] r ?_)
      rw [hc.1, List.nil_append]

theorem unifyLineEnds_cons_of_ne (h : c ≠ '\r') (r : List Char) :
    unifyLineEnds (c :: r) = c :: unifyLineEnds r := by
  rw [unifyLineEnds] <;> grind

theorem unifyLineEnds_cons_return (h : r.head? ≠ some '\n') :
    unifyLineEnds ('\r' :: r) = '\n' :: unifyLineEnds r := by
  rw [unifyLineEnds]
  rintro r' rfl
  exact h rfl

/-- **Line ends are unified piece by piece** where no pair of them is cut apart. -/
theorem unifyLineEnds_append (h : after.head? ≠ some '\n') :
    unifyLineEnds (before ++ after) = unifyLineEnds before ++ unifyLineEnds after := by
  fun_induction unifyLineEnds before with
  | case1 r ih => rw [List.cons_append, List.cons_append, unifyLineEnds, ih, List.cons_append]
  | case2 r hr ih =>
    have hhead : (r ++ after).head? ≠ some '\n' := by
      cases r with
      | nil => exact h
      | cons d r => exact fun hd => hr r (by rw [Option.some.inj hd])
    rw [List.cons_append, unifyLineEnds_cons_return hhead, ih, List.cons_append]
  | case3 c r _ hc ih =>
    rw [List.cons_append, unifyLineEnds_cons_of_ne hc, ih, List.cons_append]
  | case4 => rfl

theorem unifyLineEnds_append_of_not_mem (h : '\r' ∉ cs) (after : List Char) :
    unifyLineEnds (cs ++ after) = cs ++ unifyLineEnds after := by
  induction cs with
  | nil => rfl
  | cons c cs ih =>
    rw [List.mem_cons, not_or] at h
    rw [List.cons_append, unifyLineEnds_cons_of_ne (Ne.symm h.1), ih h.2, List.cons_append]

/-- **Each lone return becomes one line feed more.** -/
theorem count_unifyLineEnds (cs : List Char) :
    (unifyLineEnds cs).count '\n' = cs.count '\n' + loneReturns cs := by
  fun_induction unifyLineEnds cs with
  | case1 r ih => simp [loneReturns, ih]; omega
  | case2 r hr ih =>
    have hhead : r.head? ≠ some '\n' := fun hd => by
      obtain ⟨r', rfl⟩ := List.head?_eq_some_iff.mp hd
      exact hr r' rfl
    rw [loneReturns, if_pos ⟨rfl, hhead⟩, List.count_cons_self, List.count_cons_of_ne (by decide),
      ih, Nat.add_assoc]
  | case3 c r _ hc ih =>
    rw [loneReturns, if_neg fun h => hc h.1, Nat.add_zero, List.count_cons, List.count_cons, ih]
    omega
  | case4 => rfl

end Text

/-! ### Offences -/

namespace Script

open Lexeme

/-- **An offence**: a forbidden word that stands alone, or an arrow. -/
def Offends (before : List Char) (text : String) (after : List Char) : Prop :=
  text = "=>" ∨
    text ∈ forbiddenWords ∧ (∀ c ∈ before.getLast?, continuesWord c = false) ∧
      ∀ c ∈ after.head?, continuesWord c = false

/-- **The first offence in a text.** -/
structure FirstOffence (cs before : List Char) (text : String) (after : List Char) : Prop where
  text_eq : cs = before ++ text.toList ++ after
  offends : Offends before text after
  first : ∀ before' text' after', cs = before' ++ text'.toList ++ after' →
    Offends before' text' after' → before.length ≤ before'.length

theorem not_continuesWord_of_getLast? {front : List Char}
    (h : ∀ c ∈ (front ++ before).getLast?, continuesWord c = false) :
    ∀ c ∈ before.getLast?, continuesWord c = false := fun c hc =>
  h c (by rw [List.getLast?_append, Option.mem_def.mp hc]; rfl)

/-- What is an offence in a text is one in its end. -/
theorem Offends.of_append {front : List Char} (h : Offends (front ++ before) text after) :
    Offends before text after :=
  h.imp_right fun ⟨hword, hbefore, hafter⟩ =>
    ⟨hword, not_continuesWord_of_getLast? hbefore, hafter⟩

/-- A forbidden word is not empty, and a word goes on with each of its characters. -/
theorem of_mem_forbiddenWords (h : text ∈ forbiddenWords) :
    text.toList ≠ [] ∧ ∀ c ∈ text.toList, continuesWord c = true := by
  have hall : forbiddenWords.all (fun word =>
      !word.toList.isEmpty && word.toList.all continuesWord) = true := by
    decide +kernel
  have hword := List.all_eq_true.mp hall text h
  rw [Bool.and_eq_true, Bool.not_eq_true', List.isEmpty_eq_false_iff] at hword
  exact ⟨hword.1, List.all_eq_true.mp hword.2⟩

/-- So it begins with such a character. -/
theorem exists_cons_of_mem_forbiddenWords (h : text ∈ forbiddenWords) :
    ∃ d ds, text.toList = d :: ds ∧ continuesWord d = true := by
  obtain ⟨hne, hall⟩ := of_mem_forbiddenWords h
  obtain ⟨d, ds, hd⟩ := List.exists_cons_of_ne_nil hne
  exact ⟨d, ds, hd, hall d (hd ▸ List.mem_cons_self)⟩

/-- No carriage return belongs to what is forbidden. -/
theorem Offends.not_mem (h : Offends before text after) : '\r' ∉ text.toList := by
  rcases h with rfl | ⟨hword, -⟩
  · decide
  · exact fun hmem => absurd ((of_mem_forbiddenWords hword).2 _ hmem) (by decide)

/-- Nor does a line feed, so that none comes first. -/
theorem Offends.head?_ne (h : Offends before text after) (rest : List Char) :
    (text.toList ++ rest).head? ≠ some '\n' := by
  rcases h with rfl | ⟨hword, -⟩
  · nofun
  · obtain ⟨d, ds, hd, hword⟩ := exists_cons_of_mem_forbiddenWords hword
    rw [hd, List.cons_append, List.head?_cons]
    rintro ⟨⟩
    exact absurd hword (by decide)

/-- A word ends where it does not go on. -/
theorem takeWhile_continuesWord {word : List Char} (h : ∀ c ∈ word, continuesWord c = true)
    (hrest : ∀ c ∈ after.head?, continuesWord c = false) :
    (word ++ after).takeWhile continuesWord = word := by
  rw [List.takeWhile_append_of_pos h]
  cases after with
  | nil => rw [List.takeWhile_nil, List.append_nil]
  | cons c after =>
    rw [List.takeWhile_cons_of_neg (by simp [hrest c rfl]), List.append_nil]

theorem head?_dropWhile_continuesWord (r : List Char) :
    ∀ c ∈ (r.dropWhile continuesWord).head?, continuesWord c = false := fun c hc => by
  have hhead := List.head?_dropWhile_not continuesWord r
  rwa [Option.mem_def.mp hc] at hhead

/-- **No offence begins within a word that is allowed.** -/
theorem exists_eq_append_of_offends {run rest : List Char}
    (hrun : ∀ c ∈ run, continuesWord c = true) (hrest : ∀ c ∈ rest.head?, continuesWord c = false)
    (hallowed : String.ofList run ∉ forbiddenWords)
    (heq : run ++ rest = before ++ (text.toList ++ after)) (h : Offends before text after) :
    ∃ b, before = run ++ b ∧ rest = b ++ (text.toList ++ after) := by
  rcases List.append_eq_append_iff.mp heq with hbehind | ⟨b, hb, htext⟩
  · exact hbehind
  · cases b with
    | nil => exact ⟨[], by rw [hb, List.append_nil, List.append_nil], htext.symm⟩
    | cons e b =>
      rcases h with rfl | ⟨hword, hbefore, hafter⟩
      · -- an arrow would begin with a character of the word
        obtain ⟨rfl, -⟩ := List.cons_eq_cons.mp htext
        exact absurd (hrun '=' (hb ▸ List.mem_append_right _ List.mem_cons_self)) (by decide)
      · cases hlast : before.getLast? with
        | some d =>
          have hmem : d ∈ run := hb ▸ List.mem_append_left _ (List.mem_of_getLast? hlast)
          cases (hbefore d hlast).symm.trans (hrun d hmem)
        | none =>
          -- both words begin here, and so they are one
          rw [List.getLast?_eq_none_iff.mp hlast, List.nil_append] at hb
          have hsame := congrArg (List.takeWhile continuesWord) htext
          rw [takeWhile_continuesWord (of_mem_forbiddenWords hword).2 hafter, ← hb,
            takeWhile_continuesWord hrun hrest] at hsame
          rw [← hsame, String.ofList_toList] at hallowed
          exact absurd hword hallowed

namespace FirstOffence

/-- A character in front may be left out where neither a word nor an arrow begins. -/
theorem cons (hc : continuesWord c = false) (harrow : ¬(c = '=' ∧ r.head? = some '>'))
    (h : FirstOffence r before text after) : FirstOffence (c :: r) (c :: before) text after where
  text_eq := by rw [h.text_eq, List.cons_append, List.cons_append]
  offends := h.offends.imp_right fun ⟨hword, hbefore, hafter⟩ => by
    refine ⟨hword, fun d hd => ?_, hafter⟩
    cases before with
    | nil => exact Option.some.inj hd ▸ hc
    | cons b before => exact hbefore d (by rwa [List.getLast?_cons_cons] at hd)
  first before' text' after' heq hoffends := by
    cases before' with
    | cons b before' =>
      have hoffends' : Offends ([b] ++ before') text' after' := hoffends
      have hfirst := h.first before' text' after' (List.cons_eq_cons.mp heq).2 hoffends'.of_append
      exact Nat.succ_le_succ hfirst
    | nil =>
      -- the character would begin the offence
      rw [List.nil_append] at heq
      rcases hoffends with rfl | ⟨hword, -⟩
      · obtain ⟨rfl, rfl⟩ := List.cons_eq_cons.mp heq
        exact absurd ⟨rfl, rfl⟩ harrow
      · obtain ⟨d, ds, hd, hword⟩ := exists_cons_of_mem_forbiddenWords hword
        rw [hd] at heq
        obtain ⟨rfl, -⟩ := List.cons_eq_cons.mp heq
        cases hc.symm.trans hword

/-- A word in front may be left out if it is allowed. -/
theorem append_word {run rest : List Char}
    (hrun : ∀ c ∈ run, continuesWord c = true) (hrest : ∀ c ∈ rest.head?, continuesWord c = false)
    (hallowed : String.ofList run ∉ forbiddenWords) (h : FirstOffence rest before text after) :
    FirstOffence (run ++ rest) (run ++ before) text after where
  text_eq := by rw [h.text_eq, List.append_assoc, List.append_assoc, List.append_assoc]
  offends := h.offends.imp_right fun ⟨hword, hbefore, hafter⟩ => by
    refine ⟨hword, fun d hd => ?_, hafter⟩
    cases before with
    | nil =>
      -- the word of the offence would go on with the word in front of it
      obtain ⟨e, es, he, hword⟩ := exists_cons_of_mem_forbiddenWords hword
      have hhead : rest.head? = some e := by rw [h.text_eq, he]; rfl
      cases (hrest e hhead).symm.trans hword
    | cons b before =>
      rw [List.getLast?_append, List.getLast?_cons] at hd
      exact hbefore d (by rwa [List.getLast?_cons])
  first before' text' after' heq hoffends := by
    rw [List.append_assoc] at heq
    obtain ⟨b, rfl, hb⟩ := exists_eq_append_of_offends hrun hrest hallowed heq hoffends
    rw [← List.append_assoc] at hb
    rw [List.length_append, List.length_append]
    exact Nat.add_le_add_left (h.first b text' after' hb hoffends.of_append) _

end FirstOffence

/-- **The search finds the first offence**, and gives its line by the line feeds in front of
it. -/
theorem exists_firstOffence (h : findForbidden n cs = some (text, line)) :
    ∃ before after, FirstOffence cs before text after ∧ line = n + before.count '\n' := by
  fun_induction findForbidden n cs with
  | case1 => cases h
  | case2 n c r hc word hword =>
    obtain ⟨rfl, rfl⟩ := Prod.mk.inj (Option.some.inj h)
    refine ⟨[], r.dropWhile continuesWord, ⟨?_, Or.inr ⟨hword, by simp, ?_⟩, ?_⟩, rfl⟩
    · simp [word]
    · exact head?_dropWhile_continuesWord r
    · exact fun _ _ _ _ _ => Nat.zero_le _
  | case3 n c r hc word hword ih =>
    obtain ⟨before, after, hfirst, rfl⟩ := ih h
    have hrun : ∀ d ∈ c :: r.takeWhile continuesWord, continuesWord d = true :=
      List.forall_mem_cons.mpr ⟨hc, fun d hd => List.mem_takeWhile_imp hd⟩
    have hcount : (c :: r.takeWhile continuesWord).count '\n' = 0 :=
      List.count_eq_zero.mpr fun hmem => absurd (hrun _ hmem) (by decide)
    have hword' := hfirst.append_word hrun (head?_dropWhile_continuesWord r) hword
    rw [List.cons_append, List.takeWhile_append_dropWhile] at hword'
    exact ⟨_, after, hword', by rw [List.count_append, hcount, Nat.zero_add]⟩
  | case4 n c r hc harrow =>
    cases h
    obtain ⟨rfl, hhead⟩ := harrow
    obtain ⟨r', rfl⟩ := List.head?_eq_some_iff.mp hhead
    exact ⟨[], r', ⟨rfl, Or.inl rfl, fun _ _ _ _ _ => Nat.zero_le _⟩, rfl⟩
  | case5 n c r hc harrow ih =>
    obtain ⟨before, after, hfirst, hline⟩ := ih h
    refine ⟨c :: before, after, hfirst.cons (eq_false_of_ne_true hc) harrow, hline.trans ?_⟩
    by_cases hfeed : c = '\n'
    · rw [dif_pos hfeed, hfeed, List.count_cons_self, Nat.add_assoc, Nat.add_comm 1]
    · rw [dif_neg hfeed, List.count_cons_of_ne hfeed]

/-! ### Two ways to count lines -/

/-- **The line of an offence is its line among the tokens exactly if each carriage return in
front of it has a line feed behind it.** Line ends are unified on each side of the offence, which
is kept, and its line among the tokens comes later by the lone returns in front of it. -/
theorem line_eq_iff_of_forbidden {f : Fault} (h : checkAllowed source = .error f) :
    ∃ text line before after, f = .forbidden text line ∧
      FirstOffence source.toList before text after ∧
      Text.unifyLineEnds source.toList =
        Text.unifyLineEnds before ++ text.toList ++ Text.unifyLineEnds after ∧
      (({} : Place).after (Text.unifyLineEnds before)).line = line + Text.loneReturns before ∧
      (line = (({} : Place).after (Text.unifyLineEnds before)).line ↔
        ∀ a b, before = a ++ '\r' :: b → b.head? = some '\n') := by
  unfold checkAllowed at h
  split at h
  · rename_i text line hfind
    obtain ⟨before, after, hfirst, hline⟩ := exists_firstOffence hfind
    have hoffends := hfirst.offends
    have hcount : (({} : Place).after (Text.unifyLineEnds before)).line =
        line + Text.loneReturns before := by
      rw [Place.line_after, Text.count_unifyLineEnds, hline, Nat.add_assoc]
    refine ⟨text, line, before, after, (Except.error.inj h).symm, hfirst, ?_, hcount, ?_⟩
    · rw [hfirst.text_eq, List.append_assoc, Text.unifyLineEnds_append (hoffends.head?_ne after),
        Text.unifyLineEnds_append_of_not_mem hoffends.not_mem, List.append_assoc]
    · rw [hcount, ← Text.loneReturns_eq_zero_iff]
      omega
  · cases h

/-- A word that is forbidden on the third line, with a carriage return and a line feed at the
end of the first line and a line feed at the end of the second. -/
theorem line_eq_iff_of_forbidden_while :
    checkAllowed "moveUp();\r\n\nwhile (true)" = .error (.forbidden "while" 3) ∧
      ∃ text line before after, Fault.forbidden "while" 3 = .forbidden text line ∧
        FirstOffence "moveUp();\r\n\nwhile (true)".toList before text after ∧
        Text.unifyLineEnds "moveUp();\r\n\nwhile (true)".toList =
          Text.unifyLineEnds before ++ text.toList ++ Text.unifyLineEnds after ∧
        (({} : Place).after (Text.unifyLineEnds before)).line = line + Text.loneReturns before ∧
        (line = (({} : Place).after (Text.unifyLineEnds before)).line ↔
          ∀ a b, before = a ++ '\r' :: b → b.head? = some '\n') := by
  have hrejected : checkAllowed "moveUp();\r\n\nwhile (true)" = .error (.forbidden "while" 3) := by
    decide +kernel
  exact ⟨hrejected, line_eq_iff_of_forbidden hrejected⟩

/-- **The two lines may differ.** In a text with a carriage return alone at the end of its first
line, what is forbidden on the second is told to be on the first. -/
theorem not_forall_line_eq :
    ¬∀ source text line, checkAllowed source = .error (.forbidden text line) →
      ∃ before after, FirstOffence source.toList before text after ∧
        line = (({} : Place).after (Text.unifyLineEnds before)).line := by
  intro h
  obtain ⟨before, after, hfirst, hline⟩ := h "moveUp();\rwhile" "while" 1 (by decide +kernel)
  -- the word stands only once in the text
  have honce : ∀ k ≤ 15, "while".toList <+: "moveUp();\rwhile".toList.drop k →
      (({} : Place).after (Text.unifyLineEnds ("moveUp();\rwhile".toList.take k))).line = 2 := by
    decide +kernel
  have htext := hfirst.text_eq
  rw [List.append_assoc] at htext
  have hlen : before.length ≤ 15 := by
    rw [show 15 = "moveUp();\rwhile".toList.length by decide, htext, List.length_append]
    exact Nat.le_add_right _ _
  have htwo := honce before.length hlen (by rw [htext, List.drop_left]; exact ⟨after, rfl⟩)
  rw [htext, List.take_left] at htwo
  cases hline.trans htwo

end Script

end ScriptedMaze
