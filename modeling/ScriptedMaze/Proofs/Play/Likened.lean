import ScriptedMaze.Proofs.Play.Courses
import ScriptedMaze.Proofs.Play.Likewise

/-!
# Sittings that are alike

Two sittings are alike (`Sitting.Likened`) if their tables are, and if the runs of certain
names are the same in both but for the numbers that they carry. An operation that is about
none of the other runs then gets the same reply in both, and leaves them alike; and so do
any number of such operations (`Sitting.Likened.performAll`).
-/

namespace ScriptedMaze

namespace Sitting

variable {σ α : Type} {tell : Listener σ} {s s' : Sitting σ} {L : Likeness σ}
  {known : String → Prop} {name : String} {o : Operation}

/-- **Two sittings are alike**, as far as the game and the runs of certain names are
concerned. -/
structure Likened (L : Likeness σ) (known : String → Prop) (s s' : Sitting σ) : Prop where
  table : L.Alike s.table s'.table
  runs : ∀ name, known name → s'.run? name = (s.run? name).map (PacedRun.renumbered L.shift)

namespace Likened

theorem put (h : Likened L known s s') {t t' : Table σ} (ht : L.Alike t t') (name : String)
    (p : PacedRun) :
    Likened L known (({ s with table := t } : Sitting σ).put name p)
      (({ s' with table := t' } : Sitting σ).put name (p.renumbered L.shift)) where
  table := ht
  runs other hother := by
    rw [run?_put, run?_put]
    split
    · rfl
    · exact h.runs other hother

/-- What is done that concerns no run comes to the same. -/
theorem only (h : Likened L known s s') {act : Play σ α} (hact : Play.Likewise L id act act)
    (reply : α → Reply) :
    (s'.only act reply).1 = (s.only act reply).1 ∧
      Likened L known (s.only act reply).2 (s'.only act reply).2 := by
  rcases hon : act.on s.table with ⟨f | a, t⟩
  · obtain ⟨t', hon', ht⟩ := hact.of_error h.table hon
    rw [only_of_error hon, only_of_error hon']
    exact ⟨rfl, ht, h.runs⟩
  · obtain ⟨t', hon', ht⟩ := hact.of_ok h.table hon
    rw [only_of_ok hon, only_of_ok hon']
    exact ⟨rfl, ht, h.runs⟩

/-- A run is opened alike. -/
theorem openRun (h : Likened L known s s') {act : Play σ Run}
    (hact : Play.Likewise L (Run.renumbered L.shift) act act) (name : String) :
    (s'.openRun name act).1 = (s.openRun name act).1 ∧
      Likened L known (s.openRun name act).2 (s'.openRun name act).2 := by
  unfold Sitting.openRun play
  rcases hon : act.on s.table with ⟨f | run, t⟩
  · obtain ⟨t', hon', ht⟩ := hact.of_error h.table hon
    rw [hon']
    exact ⟨rfl, ht, h.runs⟩
  · obtain ⟨t', hon', ht⟩ := hact.of_ok h.table hon
    rw [hon']
    exact ⟨rfl, h.put ht name ⟨run, []⟩⟩

/-- What is done for a run comes to the same. -/
theorem withRun (h : Likened L known s s') (hname : known name)
    {act : PacedRun → Play σ (α × PacedRun)}
    (hact : ∀ p, Play.Likewise L (Prod.map id (PacedRun.renumbered L.shift)) (act p)
      (act (p.renumbered L.shift))) (reply : α → Reply) :
    (s'.withRun name act reply).1 = (s.withRun name act reply).1 ∧
      Likened L known (s.withRun name act reply).2 (s'.withRun name act reply).2 := by
  have hrun := h.runs name hname
  cases hp : s.run? name with
  | none =>
    rw [hp] at hrun
    rw [withRun_of_none hp, withRun_of_none hrun]
    exact ⟨rfl, h⟩
  | some p =>
    rw [hp] at hrun
    rcases hon : (act p).on s.table with ⟨f | ⟨a, p'⟩, t⟩
    · obtain ⟨t', hon', ht⟩ := (hact p).of_error h.table hon
      rw [withRun_of_error hp hon, withRun_of_error hrun hon']
      exact ⟨rfl, h.put ht name .ended⟩
    · obtain ⟨t', hon', ht⟩ := (hact p).of_ok h.table hon
      rw [withRun_of_ok hp hon, withRun_of_ok hrun hon']
      exact ⟨rfl, h.put ht name p'⟩

/-- **An operation that is about no other run comes to the same.** -/
theorem perform (h : Likened L known s s') (htell : L.Heeded tell)
    (ho : ∀ name, o.run? = some name → known name) :
    (s'.perform tell o).1 = (s.perform tell o).1 ∧
      Likened L known (s.perform tell o).2 (s'.perform tell o).2 := by
  open Play.Likewise in
  cases o with
  | openBatch name source => exact h.openRun (openBatch htell source) name
  | openLive name source => exact h.openRun (openLive htell source) name
  | next name => exact h.withRun (ho name rfl) (nextPaced htell) _
  | drain name =>
    exact h.withRun (ho name rfl)
      (fun p => bind (drain htell p) fun rs => pure (rs, PacedRun.ended)) _
  | close name =>
    exact h.withRun (ho name rfl)
      (fun p => bind (close p.run) fun _ => pure ((), PacedRun.ended)) _
  | slow name seconds => exact h.withRun (ho name rfl) (fun p => pure ((), p.slowed seconds)) _
  | step a => exact h.only (step htell a) _
  | cancel => exact h.only cancel _
  | reset => exact h.only (reset htell) _
  | setDifficulty preset => exact h.only (setDifficulty htell preset) _
  | solution => exact h.only (solution htell) _

/-- **So do any number of them.** -/
theorem performAll (h : Likened L known s s') (htell : L.Heeded tell) (os : List Operation)
    (hos : ∀ o ∈ os, ∀ name, o.run? = some name → known name) :
    (s'.performAll tell os).1 = (s.performAll tell os).1 ∧
      Likened L known (s.performAll tell os).2 (s'.performAll tell os).2 := by
  induction os generalizing s s' with
  | nil => exact ⟨rfl, h⟩
  | cons o os ih =>
    obtain ⟨ho, hos⟩ := List.forall_mem_cons.mp hos
    obtain ⟨hreply, hafter⟩ := h.perform htell ho
    obtain ⟨hreplies, hall⟩ := ih hafter hos
    exact ⟨congrArg₂ List.cons hreply hreplies, hall⟩

end Likened

end Sitting

end ScriptedMaze
