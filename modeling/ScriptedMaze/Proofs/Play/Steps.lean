import ScriptedMaze.Play.Sitting
import ScriptedMaze.Proofs.Play.Telling
import ScriptedMaze.Proofs.Play.Turns

/-!
# The steps of a run, one play at a time

For each play that a run is made of, what it leaves if those who listen do no more than
call back (`Game.Disturbed`): first a move, then the steps of a run up to `Play.next`
(`Play.Ends`, `Play.EndsTurn`), and the runs at a pace.
-/

namespace ScriptedMaze

namespace Game

/-- **What an action does to a game by itself**: nothing, or a move in a world that is not
finished. -/
inductive Moved (g : Game) : Game → Prop
  | unmoved : Moved g g
  | made (d : Direction) (h : g.world.finished = false) : Moved g (g.moved d)

variable {g g' : Game} {id : Nat}

theorem Moved.rules (h : Moved g g') : g'.rules = g.rules := by
  cases h <;> rfl

/-- While a run makes a move, the game is claimed for it. -/
theorem Moved.claimed (h : Moved g g') (hg : Claimed id g) (hrun : g.running = true) :
    Claimed id g' := by
  cases h with
  | unmoved => exact hg
  | made d hd =>
    refine ⟨⟨hg.running_iff, fun hfin => ?_⟩, hg.le, hg.owner, hg.live⟩
    -- the phase is that of a running one
    cases (hg.running_iff.mp hrun).symm.trans hfin

/-- A move outside of a run leaves the game in order. -/
theorem Moved.onward (h : Moved g g') (hg : g.Settled) (hrun : g.running = false) :
    Onward g g' := by
  cases h with
  | unmoved => exact .refl hg
  | made d hd =>
    refine ⟨⟨⟨hg.running_iff, fun hfin => ?_⟩, fun h => ?_⟩, Nat.le_refl _, rfl,
      fun h => ⟨h, rfl⟩, fun _ h => h⟩
    · rw [hg.finished hfin] at hd
      cases hd
    · cases hrun.symm.trans h

end Game

namespace Play

open Game

variable {σ α β : Type} {tell : Listener σ} {fit : σ → Prop} {t : Table σ} {g : Game} {id : Nat}

theorem Stirs.within {act : Play σ α} (h : Stirs fit act) : Within fit Disturbed act :=
  fun t ht => (h t ht).mono fun _ _ h' => ⟨h'.1, h'.2.disturbed⟩

theorem Within.reset (h : tell.CallsBack fit) : Within fit Disturbed (reset tell) :=
  fun t ht => (Stirs.reset h t.game.maze t ht).mono fun _ _ h' => ⟨h'.1, h'.2.disturbed⟩

/-! ### Moves -/

/-- **An action does what it does to the game, and then the game is in other hands.** -/
theorem succeeds_perform (h : tell.StaysWithin fit Disturbed) (ht : fit t.audience)
    (a : Action) :
    Succeeds (perform tell a) t fun res t' =>
      res.finished = t'.game.world.finished ∧
        fit t'.audience ∧ ∃ g, Moved t.game g ∧ Disturbed g t'.game := by
  unfold perform
  split
  · exact .of_on (on_conclude _ _ _ t) ⟨rfl, ht, _, .unmoved, .refl _⟩
  · rename_i d _
    refine .game ?_
    split
    · exact .of_on (on_conclude _ _ _ t) ⟨rfl, ht, _, .unmoved, .refl _⟩
    · rename_i hfin
      refine (succeeds_makeMove h ht d).mono ?_
      rintro res t' ⟨rfl, ht', hd⟩
      exact ⟨rfl, ht', _, .made d (eq_false_of_ne_true hfin), hd⟩

/-! ### Steps of a run -/

/-- **How a step of a run ends**: the run leaves the game in order, it goes on only with a
report, and then it has fewer than `bound` moves left. -/
structure Ends (fit : σ → Prop) (id : Nat) (limits : Script.Limits) (bound : Nat)
    (p : Option Report × Run) (t : Table σ) : Prop where
  fit : fit t.audience
  left : Left id p.2 t.game
  kept : t.game.rules.limits = limits
  ended : p.1 = none → p.2 = .ended
  fewer : p.1.isSome = true → p.2.movesLeft limits < bound

namespace Ends

variable {limits : Script.Limits} {bound bound' : Nat} {p : Option Report × Run}

/-- A run that is over has no moves left. -/
theorem of_ended {res : Option Report} (ht : fit t.audience) (hleft : Left id .ended t.game)
    (hlimits : t.game.rules.limits = limits) (hbound : res.isSome = true → 0 < bound) :
    Ends fit id limits bound (res, .ended) t :=
  ⟨ht, hleft, hlimits, fun _ => rfl, hbound⟩

theorem mono (h : Ends fit id limits bound p t) (hle : bound ≤ bound') :
    Ends fit id limits bound' p t :=
  ⟨h.fit, h.left, h.kept, h.ended, fun hp => Nat.lt_of_lt_of_le (h.fewer hp) hle⟩

end Ends

section Steps

variable {r : Replay} {limits : Script.Limits}

/-- **A run that is over** gives the game back, tells so, and ends. -/
theorem succeeds_handedBack {act : Play σ Unit} (hact : Within fit Disturbed act)
    (ht : fit t.audience) (hclaim : Claimed id t.game) (hlimits : t.game.rules.limits = limits)
    {p : Phase} (hp : p ≠ .running) (hfin : p = .finished → t.game.world.finished = true) :
    Succeeds act { t with game := t.game.handedBack id p } fun _ t' =>
      fit t'.audience ∧ Left id .ended t'.game ∧ t'.game.rules.limits = limits :=
  (hact { t with game := t.game.handedBack id p } ht).mono fun _ _ h =>
    ⟨h.1, hclaim.left_handedBack hp hfin h.2, by rw [h.2.rules, rules_handedBack, hlimits]⟩

theorem succeeds_stop (h : tell.StaysWithin fit Disturbed) (ht : fit t.audience)
    (hclaim : Claimed r.runId t.game) (hlimits : t.game.rules.limits = limits) :
    Succeeds (stop tell r) t fun _ t' =>
      fit t'.audience ∧ Left r.runId .ended t'.game ∧ t'.game.rules.limits = limits :=
  .of_eq (on_stop tell r t)
    (succeeds_handedBack (.tellStopped h r.mode) ht hclaim hlimits nofun nofun)

theorem succeeds_complete (h : tell.StaysWithin fit Disturbed) (ht : fit t.audience)
    (hclaim : Claimed r.runId t.game) (hlimits : t.game.rules.limits = limits) :
    Succeeds (complete tell r) t fun _ t' =>
      fit t'.audience ∧ Left r.runId .ended t'.game ∧ t'.game.rules.limits = limits := by
  by_cases hid : t.game.runId = r.runId
  · cases hc : t.game.cancelled with
    | true => exact .of_eq (on_complete_of_cancelled hid hc) (succeeds_stop h ht hclaim hlimits)
    | false =>
      exact .of_eq (on_complete hid hc)
        (succeeds_handedBack (.tellDone h r.mode) ht hclaim hlimits nofun nofun)
  · exact .of_on (on_complete_of_ne hid) ⟨ht, hclaim.left_of_ne hid, hlimits⟩

/-- A run that ends, ends its step. -/
theorem Succeeds.ends {act : Play σ Unit} {res : Option Report} {bound : Nat}
    (h : Succeeds act t fun _ t' =>
      fit t'.audience ∧ Left id .ended t'.game ∧ t'.game.rules.limits = limits)
    (hbound : res.isSome = true → 0 < bound) :
    Succeeds (act >>= fun _ => Pure.pure (res, Run.ended)) t (Ends fit id limits bound) :=
  h.bind fun _ _ h' => .pure (.of_ended h'.1 h'.2.1 h'.2.2 hbound)

/-- What a run does with the report on its move. -/
theorem succeeds_afterMove (h : tell.StaysWithin fit Disturbed) (ht : fit t.audience)
    (hclaim : Claimed r.runId t.game) (hlimits : t.game.rules.limits = limits) (d : Direction)
    (rest : List Direction) (res : Report) (hres : res.finished = t.game.world.finished) :
    Succeeds (afterMove tell r d rest res) t
      (Ends fit r.runId limits (rest.length + movesOfLines limits r.lines + 1)) := by
  have hbound := Nat.succ_pos (rest.length + movesOfLines limits r.lines)
  unfold afterMove
  dsimp only
  split
  · have hend := succeeds_handedBack (p := .blocked) (.tellBlocked h r d) ht hclaim hlimits nofun
      nofun
    refine (Succeeds.of_on (on_finish _ _ _) rfl).bind (P := fun _ t' => t' = _) ?_
    rintro _ _ rfl
    exact hend.ends fun _ => hbound
  · rw [hres]
    split
    · rename_i hfin
      have hend := succeeds_handedBack (p := .finished) (Within.pure ()) ht hclaim hlimits nofun
        fun _ => hfin
      refine (Succeeds.of_on (on_finish _ _ _) rfl).bind (P := fun _ t' => t' = _) ?_
      rintro _ _ rfl
      exact hend.ends fun _ => hbound
    · rename_i hfin
      have hleft := hclaim.left_suspended (eq_false_of_ne_true hfin)
        { r with index := r.index + 1, moves := rest } rfl
      exact .pure ⟨ht, hleft, hlimits, nofun, fun _ => Nat.lt_succ_self _⟩

/-- **The step at a move.** -/
theorem succeeds_advance (h : tell.StaysWithin fit Disturbed) (ht : fit t.audience)
    (hclaim : Claimed r.runId t.game) (hlimits : t.game.rules.limits = limits)
    (d : Direction) (rest : List Direction) :
    Succeeds (advance tell r d rest) t
      (Ends fit r.runId limits (rest.length + movesOfLines limits r.lines + 1)) := by
  by_cases hid : t.game.runId = r.runId
  · cases hc : t.game.cancelled with
    | true =>
      exact .of_eq (on_advance_of_cancelled hid hc)
        ((succeeds_stop h ht hclaim hlimits).ends nofun)
    | false =>
      have hrun : t.game.running = true := by
        simpa [hc] using hclaim.live hid
      refine .of_eq (on_advance hid hc) ((succeeds_perform h ht _).bind ?_)
      rintro res t' ⟨hres, ht', g, hmove, hd⟩
      refine succeeds_afterMove h ht' (hd.claimed (hmove.claimed hclaim hrun)) ?_ d rest res hres
      rw [hd.rules, hmove.rules, hlimits]
  · exact .of_on (on_advance_of_ne hid) (.of_ended ht (hclaim.left_of_ne hid) hlimits nofun)

/-- **The step at the lines to come.** -/
theorem succeeds_nextLine (h : tell.StaysWithin fit Disturbed) (ht : fit t.audience)
    (hclaim : Claimed r.runId t.game) (hlimits : t.game.rules.limits = limits)
    (lines : List (Nat × String)) :
    Succeeds (nextLine tell r lines) t
      (Ends fit r.runId limits (movesOfLines limits lines)) := by
  induction lines generalizing t with
  | nil => exact (succeeds_complete h ht hclaim hlimits).ends nofun
  | cons numbered lines ih =>
    obtain ⟨n, line⟩ := numbered
    rw [movesOfLines_cons]
    cases hc : t.game.cancelled with
    | true =>
      exact .of_eq (on_nextLine_of_cancelled hc)
        ((succeeds_complete h ht hclaim hlimits).ends nofun)
    | false =>
      refine .of_eq (on_nextLine hc) ((succeeds_readLine h ht n line).bind ?_)
      rintro ds? t' ⟨hds, ht', hd⟩
      have hlimits' : t'.game.rules.limits = limits := by rw [hd.rules, hlimits]
      have hnext := ih ht' (hd.claimed hclaim) hlimits'
      rw [← hlimits, ← hds, hlimits]
      match ds? with
      | none => exact hnext.mono fun p _ h' => h'.mono (Nat.le_add_left _ _)
      | some [] =>
        by_cases hid : t'.game.runId = r.runId
        · refine .of_eq (on_afterLine_nil hid) (hnext.mono fun p _ h' => ?_)
          exact h'.mono (Nat.le_add_left _ _)
        · exact .of_on (on_afterLine_nil_of_ne hid)
            (.of_ended ht' ((hd.claimed hclaim).left_of_ne hid) hlimits' nofun)
      | some (d :: rest) =>
        refine (succeeds_advance (r := { r with line := some n, lines }) h ht'
          (hd.claimed hclaim) hlimits' d rest).mono fun p _ h' => h'.mono ?_
        rw [Option.getD_some, List.length_cons]
        dsimp only
        omega

/-- **The step of a run that was begun.** -/
theorem succeeds_resume (h : tell.StaysWithin fit Disturbed) (ht : fit t.audience)
    (hclaim : Claimed r.runId t.game) (hlimits : t.game.rules.limits = limits) :
    Succeeds (resume tell r) t
      (Ends fit r.runId limits (r.moves.length + movesOfLines limits r.lines)) := by
  cases hm : r.moves with
  | cons d rest =>
    rw [resume_of_cons hm]
    refine (succeeds_advance h ht hclaim hlimits d rest).mono fun p _ h' => h'.mono ?_
    rw [List.length_cons]
    omega
  | nil =>
    by_cases hid : t.game.runId = r.runId
    · refine .of_eq (on_resume_of_nil hm hid) ?_
      refine (succeeds_nextLine h ht hclaim hlimits r.lines).mono fun p _ h' => h'.mono ?_
      exact Nat.le_add_left _ _
    · exact .of_on (on_resume_of_ne hid) (.of_ended ht (hclaim.left_of_ne hid) hlimits nofun)

end Steps

/-! ### Turns -/

/-- **How a turn ends**: beside what it did to the game, a run that has nothing more to
report has ended, and one that has reported has fewer than `bound` moves left. -/
structure EndsTurn (fit : σ → Prop) (run : Run) (g : Game) (bound : Nat)
    (p : Option Report × Run) (t : Table σ) : Prop where
  fit : fit t.audience
  turn : Run.Turn run g p.2 t.game
  kept : t.game.rules.limits = g.rules.limits
  ended : p.1 = none → p.2 = .ended
  fewer : p.1.isSome = true → p.2.movesLeft g.rules.limits < bound

section Turns

variable {run : Run}

/-- A step of a run under a number that it may have makes a turn. -/
theorem Ends.endsTurn {bound : Nat} {p : Option Report × Run}
    (h : Ends fit id g.rules.limits bound p t)
    (hnumber : g.runId < id ∨ g.runId = id ∧ run.Carries id) :
    EndsTurn fit run g bound p t :=
  ⟨h.fit, .made id hnumber h.left, h.kept, h.ended, h.fewer⟩

/-- **A run that was not begun takes the game**, and goes on under the number that it was
given. -/
theorem succeeds_begun (h : tell.StaysWithin fit Disturbed) (ht : fit t.audience)
    (hset : t.game.Settled) (hidle : t.game.running = false)
    {first : Nat → Play σ (Option Report × Run)} {bound : Nat}
    (hfirst : Succeeds (first (t.game.runId + 1)) { t with game := t.game.taken }
      (Ends fit (t.game.runId + 1) t.game.rules.limits bound)) :
    Succeeds (begin tell >>= fun id? => match id? with
      | none => Pure.pure (none, .ended)
      | some id => first id) t (EndsTurn fit run t.game bound) := by
  cases hfin : t.game.world.finished with
  | true =>
    have hbegin : Succeeds (begin tell) t fun id? t' =>
        id? = none ∧ fit t'.audience ∧ Disturbed t.game t'.game :=
      .of_eq (on_begin_of_finished hidle hfin)
        ((Within.report h _ _ t ht).bind fun _ _ h' => .pure ⟨rfl, h'⟩)
    refine hbegin.bind ?_
    rintro _ t' ⟨rfl, ht', hd⟩
    have hturn : Run.Turn run t.game .ended t'.game :=
      .gone rfl (hd.onward hset) fun _ => hd.not_running hidle
    exact .pure ⟨ht', hturn, by rw [hd.rules], fun _ => rfl, nofun⟩
  | false =>
    refine (Succeeds.of_on (on_begin hidle hfin) ⟨rfl, rfl⟩).bind
      (P := fun id? t' => id? = _ ∧ t' = _) ?_
    rintro _ _ ⟨rfl, rfl⟩
    exact hfirst.mono fun p t' h' => h'.endsTurn (.inl (Nat.lt_succ_self _))

/-- **A request to a run that may be asked for a step is a turn.** -/
theorem succeeds_next (h : tell.StaysWithin fit Disturbed) (ht : fit t.audience)
    (hset : t.game.Settled) (hfit : run.Fits t.game)
    (hidle : run.Started ∨ t.game.running = false) :
    Succeeds (next tell run) t
      (EndsTurn fit run t.game (run.movesLeft t.game.rules.limits)) := by
  have hclaim := claimed_taken t.game
  cases run with
  | ended =>
    have hturn : Run.Turn .ended t.game .ended t.game :=
      .gone rfl (.refl hset) fun hi => absurd hi (Run.not_carries_ended _)
    exact .pure ⟨ht, hturn, rfl, fun _ => rfl, nofun⟩
  | suspended r =>
    by_cases hid : t.game.runId = r.runId
    · have hstep := succeeds_resume h ht (hfit.claimed hset hid) rfl
      refine (hstep.guarded r.runId).mono fun p t' h' => h'.endsTurn ?_
      exact .inr ⟨hid, Run.carries_suspended r⟩
    · have hturn : Run.Turn (.suspended r) t.game .ended t.game :=
        .gone rfl (.refl hset) fun hi => absurd (hi.eq (Run.carries_suspended r)) hid
      refine .of_on (on_guarded_of_ok (on_resume_of_ne hid)) ?_
      exact ⟨ht, hturn, rfl, fun _ => rfl, nofun⟩
  | batch ds =>
    refine succeeds_begun h ht hset (hidle.resolve_left id) ?_
    refine (Within.precheck h ds { t with game := t.game.taken } ht).bind fun _ _ h₁ => ?_
    refine (Within.report h _ _ _ h₁.1).bind fun _ _ h₂ => ?_
    refine (Within.notice h _ _ h₂.1).bind fun _ t' h₃ => ?_
    have hd := (h₁.2.trans h₂.2).trans h₃.2
    exact (succeeds_resume h h₃.1 (hd.claimed hclaim) (by rw [hd.rules]; rfl)).guarded _
  | live source =>
    refine succeeds_begun h ht hset (hidle.resolve_left id) ?_
    refine (Within.report h _ _ { t with game := t.game.taken } ht).bind fun _ t' h₁ => ?_
    have hd := h₁.2
    exact (succeeds_nextLine h h₁.1 (hd.claimed hclaim) (by rw [hd.rules]; rfl) _).guarded _

/-- **A run that was not begun cannot be asked for a step while another owns the game.** -/
theorem on_next_of_busy (hrun : ¬run.Started) (h : t.game.running = true) :
    (next tell run).on t = (.error .busy, t) := by
  cases run with
  | batch ds =>
    unfold next
    rw [on_bind, on_begin_of_running h]
  | live source =>
    unfold next
    rw [on_bind, on_begin_of_running h]
  | suspended r => exact absurd trivial hrun
  | ended => exact absurd trivial hrun

/-! ### Runs at a pace -/

/-- **The waits of a run come before its turn.** -/
theorem succeeds_nextPaced (h : tell.StaysWithin fit Disturbed) (ht : fit t.audience)
    (hset : t.game.Settled) {p : PacedRun} (hfit : p.run.Fits t.game)
    (hidle : p.run.Started ∨ t.game.running = false) :
    Succeeds (nextPaced tell p) t fun q t' =>
      EndsTurn fit p.run t.game (p.movesLeft t.game.rules.limits) (q.1, q.2.run) t' := by
  have hwait : Within fit Disturbed (p.paces.forM (await tell)) :=
    .forM (fun q => .await h q) p.paces
  refine (hwait t ht).bind fun _ t₁ h₁ => ?_
  have honward := h₁.2.onward hset
  have hnext := succeeds_next h h₁.1 honward.settled (hfit.onward honward)
    (hidle.imp_right h₁.2.not_running)
  refine hnext.bind ?_
  rintro ⟨res?, run'⟩ t₂ ⟨ht₂, hturn, hkept, hover, hfewer⟩
  rw [honward.rules] at hkept hfewer
  have hturn' := hturn.after hfit honward
  cases res? with
  | some res => exact .pure ⟨ht₂, hturn', hkept, hover, hfewer⟩
  | none =>
    cases hover rfl
    exact .pure ⟨ht₂, hturn', hkept, fun _ => rfl, nofun⟩

/-- **All turns of a run**, with as many requests as it may need to come to an end, are one
turn at whose end it has ended. -/
theorem succeeds_take (h : tell.StaysWithin fit Disturbed) (n : Nat) {p : PacedRun}
    (ht : fit t.audience) (hset : t.game.Settled) (hfit : p.run.Fits t.game)
    (hidle : p.run.Started ∨ t.game.running = false)
    (hn : p.movesLeft t.game.rules.limits < n) :
    Succeeds (take tell (fun _ => Pure.pure ()) n p) t fun _ t' =>
      fit t'.audience ∧ Run.Turn p.run t.game .ended t'.game := by
  induction n generalizing p t with
  | zero => exact absurd hn (Nat.not_lt_zero _)
  | succ n ih =>
    refine (succeeds_nextPaced h ht hset hfit hidle).bind ?_
    rintro ⟨res?, p'⟩ t₁ ⟨ht₁, hturn, hkept, hover, hfewer⟩
    cases res? with
    | none =>
      rw [show p'.run = .ended from hover rfl] at hturn
      exact .pure ⟨ht₁, hturn⟩
    | some res =>
      have hlt : p'.movesLeft t₁.game.rules.limits < n := by
        rw [hkept]
        exact Nat.lt_of_lt_of_le (hfewer rfl) (Nat.le_of_lt_succ hn)
      have hrest := ih ht₁ hturn.settled hturn.fits (.inl hturn.started) hlt
      refine hrest.bind fun _ t₂ h₂ => .pure ⟨h₂.1, hturn.trans h₂.2⟩

theorem succeeds_drain (h : tell.StaysWithin fit Disturbed) (ht : fit t.audience)
    (hset : t.game.Settled) {p : PacedRun} (hfit : p.run.Fits t.game)
    (hidle : p.run.Started ∨ t.game.running = false) :
    Succeeds (drain tell p) t fun _ t' =>
      fit t'.audience ∧ Run.Turn p.run t.game .ended t'.game :=
  .game (succeeds_take h _ ht hset hfit hidle (Nat.lt_succ_self _))

/-- **To give up a run is its last turn.** -/
theorem succeeds_close (ht : fit t.audience) (hset : t.game.Settled) (hfit : run.Fits t.game) :
    Succeeds (close run) t fun _ t' => fit t'.audience ∧ Run.Turn run t.game .ended t'.game := by
  have hstay (hi : run.Carries t.game.runId → t.game.running = false) :
      Run.Turn run t.game .ended t.game :=
    .gone rfl (.refl hset) hi
  cases run with
  | suspended r =>
    refine .of_on (on_release r.runId t) ⟨ht, ?_⟩
    rw [released_eq]
    split
    · by_cases hid : t.game.runId = r.runId
      · have hleft := (hfit.claimed hset hid).left_handedBack (p := .cancelled) nofun nofun
          (.refl _)
        exact .made r.runId (.inr ⟨hid, Run.carries_suspended r⟩) hleft
      · rw [handedBack_of_ne hid]
        exact hstay fun hi => absurd (hi.eq (Run.carries_suspended r)) hid
    · rename_i hrun
      exact hstay fun _ => eq_false_of_ne_true hrun
  | batch ds => exact .pure ⟨ht, hstay fun hi => absurd hi (Run.not_carries_of_not_started id _)⟩
  | live source =>
    exact .pure ⟨ht, hstay fun hi => absurd hi (Run.not_carries_of_not_started id _)⟩
  | ended => exact .pure ⟨ht, hstay fun hi => absurd hi (Run.not_carries_ended _)⟩

/-- A run that was not begun waits for nothing, and cannot be asked for a step while
another owns the game. -/
theorem on_nextPaced_of_busy {p : PacedRun} (hrun : ¬p.run.Started)
    (hwait : ∀ q ∈ p.paces, q.owed = false) (h : t.game.running = true) :
    (nextPaced tell p).on t = (.error .busy, t) := by
  unfold nextPaced
  rw [on_bind, on_forM_await hwait]
  dsimp only
  rw [on_bind, on_next_of_busy hrun h]

theorem on_drain_of_busy {p : PacedRun} (hrun : ¬p.run.Started)
    (hwait : ∀ q ∈ p.paces, q.owed = false) (h : t.game.running = true) :
    (drain tell p).on t = (.error .busy, t) := by
  unfold drain
  rw [on_bind, on_game]
  dsimp only
  rw [take, on_bind, on_nextPaced_of_busy hrun hwait h]

end Turns

end Play

end ScriptedMaze
