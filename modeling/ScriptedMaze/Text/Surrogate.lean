/-!
# Surrogates

A code point beyond U+FFFF takes two units of sixteen bits, a high half and a low
half (`Text.joinHalves`). The halves are taken from a range of code points that
are no characters, the surrogates. A text may still hold one by itself, and is
then a list of **letters**: characters, and halves that have no partner
(`Text.Letter`).

A `String` has no place for halves. Where a text that may hold some has to be one
all the same, it is packed into one (`Text.packed`): a half is put down as two
characters, the first of which is `Text.mark`. Packing loses nothing, and
`Text.unpacked` gives the letters back; neither of the two characters is a blank, a
line feed, or part of a word or a number, and so whoever reads the packed text for
such things finds them where they are in the text itself.
-/

namespace ScriptedMaze.Text

/-- What a text is made of that may hold half of a pair by itself. -/
inductive Letter where
  | char (c : Char)
  /-- Half of a pair, by its code point. -/
  | half (n : Nat)
deriving DecidableEq, Repr

namespace Letter

/-- The letter of a code point. -/
def ofCode (n : Nat) : Letter := if n.isValidChar then char (Char.ofNat n) else half n

/-- The character that a letter is. -/
def char? : Letter → Option Char
  | char c => some c
  | half _ => none

end Letter

/-- The letters of a text without halves. -/
def letters (s : String) : List Letter := s.toList.map .char

/-- The characters at the front of a text that are of some kind, and the rest. -/
def leading (p : Char → Bool) : List Letter → List Char × List Letter
  | .char c :: r =>
    if p c then
      let (front, rest) := leading p r
      (c :: front, rest)
    else ([], .char c :: r)
  | ls => ([], ls)

/-- Whether a unit is the first half of a pair. -/
def isHighHalf (n : Nat) : Bool := 0xD800 ≤ n && n < 0xDC00

/-- Whether a unit is the second half of a pair. -/
def isLowHalf (n : Nat) : Bool := 0xDC00 ≤ n && n < 0xE000

/-- The code point that a pair stands for. -/
def joinHalves (hi lo : Nat) : Nat := 0x10000 + 0x400 * (hi - 0xD800) + (lo - 0xDC00)

/-- The code points of units of sixteen bits, where a half that has no partner
stands for itself. -/
def joinUnits : List Nat → List Nat
  | hi :: lo :: r =>
    if isHighHalf hi && isLowHalf lo then joinHalves hi lo :: joinUnits r
    else hi :: joinUnits (lo :: r)
  | units => units

/-! ### Packing -/

/-- The character that stands in front of a half. -/
def mark : Char := Char.ofNat 0x10FFFF

/-- A letter as characters. The mark itself is put down twice. -/
def Letter.packed : Letter → List Char
  | char c => if c = mark then [mark, mark] else [c]
  | half n => [mark, Char.ofNat (0x100000 + n)]

/-- Letters as a string. -/
def packed (ls : List Letter) : String := String.ofList (ls.flatMap Letter.packed)

/-- The letters that were packed into a string. -/
def unpacked : List Char → List Letter
  | a :: b :: r =>
    if a = mark then
      (if b = mark then .char mark else .half (b.toNat - 0x100000)) :: unpacked r
    else .char a :: unpacked (b :: r)
  | cs => cs.map .char

/-- A text without the mark is packed as it is. -/
theorem packed_letters {s : String} (h : mark ∉ s.toList) : packed (letters s) = s := by
  have hchars : ∀ cs : List Char, mark ∉ cs → (cs.map .char).flatMap Letter.packed = cs := by
    intro cs hcs
    induction cs with
    | nil => rfl
    | cons c r ih =>
      have hne : c ≠ mark := (List.ne_of_not_mem_cons hcs).symm
      rw [List.map_cons, List.flatMap_cons, ih (List.not_mem_of_not_mem_cons hcs), Letter.packed,
        if_neg hne]
      rfl
  rw [packed, letters, hchars _ h, String.ofList_toList]

/-- The character that stands for a half is not the mark. -/
theorem unpacked_half {n : Nat} (h : n < 0xFFFF) (r : List Char) :
    unpacked ((Letter.half n).packed ++ r) = .half n :: unpacked r := by
  have hvalid : Nat.isValidChar (0x100000 + n) := .inr ⟨by omega, by omega⟩
  have hcode : (Char.ofNat (0x100000 + n)).toNat = 0x100000 + n := by
    rw [Char.ofNat, dif_pos hvalid]
    rfl
  have hne : Char.ofNat (0x100000 + n) ≠ mark := by
    intro h
    have hmark := congrArg Char.toNat h
    rw [hcode] at hmark
    have htop : mark.toNat = 0x10FFFF := by decide
    omega
  rw [Letter.packed, List.cons_append, List.cons_append, List.nil_append, unpacked, if_pos rfl,
    if_neg hne, hcode, Nat.add_sub_cancel_left]

/-- **Packing loses nothing.** -/
theorem unpacked_packed {ls : List Letter} (h : ∀ n, .half n ∈ ls → n < 0xFFFF) :
    unpacked (packed ls).toList = ls := by
  rw [packed, String.toList_ofList]
  induction ls with
  | nil => rfl
  | cons l r ih =>
    have hrest := ih fun n hn => h n (List.mem_cons_of_mem _ hn)
    rw [List.flatMap_cons]
    cases l with
    | half n => rw [unpacked_half (h n List.mem_cons_self), hrest]
    | char c =>
      by_cases hc : c = mark
      · rw [Letter.packed, if_pos hc, List.cons_append, List.cons_append, List.nil_append, unpacked,
          if_pos rfl, if_pos rfl, hrest, hc]
      · rw [Letter.packed, if_neg hc, List.singleton_append]
        generalize r.flatMap Letter.packed = cs at hrest
        subst hrest
        cases cs with
        | nil => rfl
        | cons b cs => rw [unpacked, if_neg hc]

example : unpacked (packed [.char 'a', .half 0xD83D, .char mark, .char 'b']).toList =
    [.char 'a', .half 0xD83D, .char mark, .char 'b'] := by
  decide

end ScriptedMaze.Text
