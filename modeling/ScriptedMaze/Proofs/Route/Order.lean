import ScriptedMaze.Route.Frontier

/-!
# The first entry of a frontier

A frontier is a heap, and a heap is of use only if its top is its first entry.
It is one as long as no entry comes before its parent (`Frontier.Ordered`). The
empty heap is ordered, and merging keeps ordered heaps ordered, since the top of
the merged heap is the earlier one of the two tops; pushing and popping are
merges. So what is popped has the least estimate of all entries
(`Frontier.estimate_le_of_pop`).
-/

namespace ScriptedMaze.Route

namespace Entry

variable {a b c : Entry}

theorem before_iff : a.before b = true ↔ a.estimate < b.estimate ∨
    a.estimate = b.estimate ∧ (a.cost < b.cost ∨ a.cost = b.cost ∧ a.serial < b.serial) := by
  simp [before]

theorem not_before_iff : a.before b = false ↔ ¬(a.estimate < b.estimate ∨
    a.estimate = b.estimate ∧ (a.cost < b.cost ∨ a.cost = b.cost ∧ a.serial < b.serial)) := by
  rw [← before_iff, Bool.not_eq_true]

theorem not_before_of_before (h : a.before b = true) : b.before a = false := by
  rw [before_iff] at h
  rw [not_before_iff]
  omega

theorem not_before_trans (hba : b.before a = false) (hcb : c.before b = false) :
    c.before a = false := by
  rw [not_before_iff] at hba hcb ⊢
  omega

theorem estimate_le_of_not_before (h : b.before a = false) : a.estimate ≤ b.estimate := by
  rw [not_before_iff] at h
  omega

end Entry

namespace Frontier

variable {h rest : Frontier} {e f : Entry}

/-- No entry comes before its parent. -/
def Ordered : Frontier → Prop
  | empty => True
  | node _ e l r => (∀ f ∈ l.toList, f.before e = false) ∧ (∀ f ∈ r.toList, f.before e = false) ∧
      l.Ordered ∧ r.Ordered

theorem ordered_join {a b : Frontier} (ha : ∀ f ∈ a.toList, f.before e = false)
    (hb : ∀ f ∈ b.toList, f.before e = false) (hoa : a.Ordered) (hob : b.Ordered) :
    (join e a b).Ordered := by
  rw [join]
  split
  · exact ⟨hb, ha, hob, hoa⟩
  · exact ⟨ha, hb, hoa, hob⟩

/-- Nothing in an ordered heap comes before its top. -/
theorem Ordered.not_before_top {r : Nat} {l r' : Frontier} (ho : (node r e l r').Ordered)
    (hf : f ∈ (node r e l r').toList) : f.before e = false := by
  obtain ⟨hl, hr, -, -⟩ := ho
  rcases List.mem_cons.mp hf with rfl | hf
  · rw [Entry.not_before_iff]
    omega
  · rcases List.mem_append.mp hf with hf | hf
    · exact hl f hf
    · exact hr f hf

theorem mem_merge (a b : Frontier) : f ∈ (merge a b).toList ↔ f ∈ a.toList ∨ f ∈ b.toList := by
  rw [(toList_merge a b).mem_iff, List.mem_append]

/-- **Merging keeps ordered heaps ordered.** -/
theorem ordered_merge (a b : Frontier) (ha : a.Ordered) (hb : b.Ordered) : (merge a b).Ordered := by
  fun_induction merge a b with
  | case1 b => exact hb
  | case2 a _ => exact ha
  | case3 r e la ra s f lb rb hfe ih =>
    -- the top of the second heap comes before everything in the first
    obtain ⟨hlb, hrb, holb, horb⟩ := hb
    refine ordered_join hlb (fun x hx => ?_) holb (ih ha horb)
    rcases (mem_merge _ _).mp hx with hx | hx
    · exact Entry.not_before_trans (Entry.not_before_of_before hfe) (ha.not_before_top hx)
    · exact hrb x hx
  | case4 r e la ra s f lb rb hfe ih =>
    obtain ⟨hla, hra, hola, hora⟩ := ha
    refine ordered_join hla (fun x hx => ?_) hola (ih hora hb)
    rcases (mem_merge _ _).mp hx with hx | hx
    · exact hra x hx
    · exact Entry.not_before_trans (Bool.not_eq_true _ ▸ hfe) (hb.not_before_top hx)

theorem ordered_push (ho : h.Ordered) (e : Entry) : (h.push e).Ordered :=
  ordered_merge _ _ ⟨by simp [toList], by simp [toList], trivial, trivial⟩ ho

theorem ordered_of_pop (ho : h.Ordered) (hp : h.pop = some (e, rest)) : rest.Ordered := by
  cases h with
  | empty => cases hp
  | node r f l r' =>
    cases hp
    exact ordered_merge _ _ ho.2.2.1 ho.2.2.2

/-- **What is popped has the least estimate.** -/
theorem estimate_le_of_pop (ho : h.Ordered) (hp : h.pop = some (e, rest)) (hf : f ∈ h.toList) :
    e.estimate ≤ f.estimate := by
  cases h with
  | empty => cases hp
  | node r g l r' =>
    cases hp
    exact Entry.estimate_le_of_not_before (ho.not_before_top hf)

theorem mem_push : f ∈ (h.push e).toList ↔ f = e ∨ f ∈ h.toList := by
  rw [(toList_push h e).mem_iff, List.mem_cons]

theorem mem_of_pop (hp : h.pop = some (e, rest)) : f ∈ h.toList ↔ f = e ∨ f ∈ rest.toList := by
  rw [(toList_of_pop hp).mem_iff, List.mem_cons]

theorem toList_of_pop_eq_none (hp : h.pop = none) : h.toList = [] := by
  cases h with
  | empty => rfl
  | node r f l r' => cases hp

end Frontier

end ScriptedMaze.Route
