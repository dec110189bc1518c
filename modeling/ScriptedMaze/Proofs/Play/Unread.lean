import ScriptedMaze.Proofs.Play.Undisturbed

/-!
# Lines that a run does not come to

A run in live mode reads a line when it has made the moves of the lines above. So if it ends
on some line, the lines below are never read: nobody hears of them, and with other lines in
their place the run is the same in every respect (`Play.on_drain_openLive_eq`).

Two runs that have the same lines to read first, and then different ones, are followed
request by request. As long as the lines that they share ask for a move, both are answered
alike and share the lines that are left (`Run.SameDownTo`). Before these lines are used up,
a move ends both.

With this the run in live mode is told in full, and the main result of the development on
undisturbed runs stands here (`Play.replayed_of_passive`).
-/

namespace ScriptedMaze

/-- **One of these moves ends the run that makes them.** -/
def World.EndsAmong (w : World) (ds : List Direction) : Prop :=
  ∃ o ∈ w.outcomes ds, o.ends = true

instance (w : World) (ds : List Direction) : Decidable (w.EndsAmong ds) :=
  inferInstanceAs (Decidable (∃ o ∈ w.outcomes ds, o.ends = true))

namespace World.EndsAmong

variable {w : World} {d : Direction} {ds : List Direction}

theorem ne_nil (h : w.EndsAmong ds) : ds ≠ [] := by
  rintro rfl
  obtain ⟨o, ho, -⟩ := h
  cases ho

theorem of_cons (h : w.EndsAmong (d :: ds)) (hd : (w.move d).2.ends = false) :
    (w.move d).1.EndsAmong ds := by
  obtain ⟨o, ho, hoe⟩ := h
  rcases List.mem_cons.mp ho with rfl | ho
  · cases hd.symm.trans hoe
  · exact ⟨o, ho, hoe⟩

end World.EndsAmong

/-- **Two runs that have the same to do down to some line**, and different lines below. -/
inductive Run.SameDownTo (after after' : List (Nat × String)) : Run → Run → Prop
  | suspended (r : Replay) (lines : List (Nat × String)) :
      SameDownTo after after' (.suspended { r with lines := lines ++ after })
        (.suspended { r with lines := lines ++ after' })
  | ended : SameDownTo after after' .ended .ended

/-- More lines ask for more moves. -/
theorem Replay.asks_append (limits : Script.Limits) (r : Replay) (a b : List (Nat × String)) :
    Replay.asks limits { r with lines := a ++ b } =
      Replay.asks limits { r with lines := a } ++ asked limits b := by
  unfold asks asked
  rw [List.flatMap_append, List.append_assoc]

namespace Play

open Game

variable {σ : Type} {tell : Listener σ} {fit : σ → Prop} {t : Table σ} {r : Replay}
  {limits : Script.Limits} {lines after after' held held' : List (Nat × String)}

/-- **Two steps are answered alike**: with the same report and the same table, and then there
is the same to do down to some line. -/
def Alike (after after' : List (Nat × String)) (act act' : Play σ (Option Report × Run))
    (t : Table σ) : Prop :=
  ∃ res run run' t', act.on t = (.ok (res, run), t') ∧ act'.on t = (.ok (res, run'), t') ∧
    Run.SameDownTo after after' run run'

theorem Alike.of_eq {act act' next next' : Play σ (Option Report × Run)} {t' : Table σ}
    (hon : act.on t = next.on t') (hon' : act'.on t = next'.on t')
    (h : Alike after after' next next' t') : Alike after after' act act' t := by
  obtain ⟨res, run, run', t'', h, h', hsame⟩ := h
  exact ⟨res, run, run', t'', hon.trans h, hon'.trans h', hsame⟩

theorem Alike.guarded {act act' : Play σ (Option Report × Run)}
    (h : Alike after after' act act' t) (id : Nat) :
    Alike after after' (guarded id act) (guarded id act') t := by
  obtain ⟨res, run, run', t', h, h', hsame⟩ := h
  exact ⟨res, run, run', t', on_guarded_of_ok h, on_guarded_of_ok h', hsame⟩

/-- What a run does after its move does not depend on the lines. -/
theorem alike_afterMove (h : tell.StaysWithin fit SameButStatus) (ht : fit t.audience)
    (hid : t.game.runId = r.runId) (lines after after' : List (Nat × String)) (res : Report)
    (d : Direction) (rest : List Direction) :
    Alike after after' (afterMove tell { r with lines := lines ++ after } d rest res)
      (afterMove tell { r with lines := lines ++ after' } d rest res) t := by
  have hsame : res.verdict = .blocked ∨ res.finished = true →
      afterMove tell { r with lines := lines ++ after' } d rest res =
        afterMove tell { r with lines := lines ++ after } d rest res := by
    intro hends
    unfold afterMove
    dsimp only
    split
    · rfl
    · rename_i hblocked
      rw [if_pos (hends.resolve_left hblocked), if_pos (hends.resolve_left hblocked)]
  by_cases hblocked : res.verdict = .blocked
  · obtain ⟨_, t', hon, -, rfl, -⟩ := succeeds_afterMove_of_blocked h ht
      (r := { r with lines := lines ++ after }) hid d rest hblocked
    exact ⟨_, _, _, t', hon, (congrArg (·.on t) (hsame (.inl hblocked))).trans hon, .ended⟩
  by_cases hfinished : res.finished = true
  · obtain ⟨_, t', hon, -, rfl, -⟩ := succeeds_afterMove_of_finished ht
      (r := { r with lines := lines ++ after }) hid d rest hblocked hfinished
    exact ⟨_, _, _, t', hon, (congrArg (·.on t) (hsame (.inr hfinished))).trans hon, .ended⟩
  · -- the run goes on, with the lines that it has
    have hgoesOn : ∀ lines : List (Nat × String),
        (afterMove tell { r with lines } d rest res).on t =
          (.ok (some (r.numbered res),
            .suspended { r with index := r.index + 1, moves := rest, lines }), t) := by
      intro lines
      unfold afterMove
      dsimp only
      rw [if_neg hblocked, if_neg hfinished]
      rfl
    exact ⟨_, _, _, t, hgoesOn _, hgoesOn _,
      .suspended { r with index := r.index + 1, moves := rest } lines⟩

/-- A move is made alike. -/
theorem alike_advance (h : tell.StaysWithin fit SameButStatus) (ht : fit t.audience)
    (hid : t.game.runId = r.runId) (hc : t.game.cancelled = false)
    (hfin : t.game.world.finished = false) (lines after after' : List (Nat × String))
    (d : Direction) (rest : List Direction) :
    Alike after after' (advance tell { r with lines := lines ++ after } d rest)
      (advance tell { r with lines := lines ++ after' } d rest) t := by
  obtain ⟨res, t₁, hon, -, ht₁, s, hs⟩ :=
    Succeeds.of_eq (on_perform hfin) (succeeds_makeMove h ht d)
  have hmoved : ∀ lines : List (Nat × String), (advance tell { r with lines } d rest).on t =
      (afterMove tell { r with lines } d rest res).on t₁ := by
    intro lines
    rw [on_advance (by exact hid) hc, on_bind, hon]
  exact .of_eq (hmoved _) (hmoved _)
    (alike_afterMove h ht₁ (by rw [hs, ← hid]; rfl) lines after after' res d rest)

/-- **Lines that share one which asks for a move** are gone through alike. -/
theorem alike_nextLine (h : tell.StaysWithin fit SameButStatus) (ht : fit t.audience)
    (hid : t.game.runId = r.runId) (hc : t.game.cancelled = false)
    (hfin : t.game.world.finished = false) (hasks : asked t.game.rules.limits lines ≠ []) :
    Alike after after' (nextLine tell { r with lines := held } (lines ++ after))
      (nextLine tell { r with lines := held' } (lines ++ after')) t := by
  induction lines generalizing t with
  | nil => exact absurd rfl hasks
  | cons numbered lines ih =>
    obtain ⟨n, line⟩ := numbered
    obtain ⟨ds?, t₁, hon, hds, ht₁, s, hs⟩ := succeeds_readLine h ht n line
    have hid₁ : t₁.game.runId = r.runId := by rw [hs, ← hid]
    have hc₁ : t₁.game.cancelled = false := by rw [hs, ← hc]
    have hfin₁ : t₁.game.world.finished = false := by rw [hs, ← hfin]
    have hread : ∀ (r : Replay) (below : List (Nat × String)),
        (nextLine tell r ((n, line) :: (lines ++ below))).on t =
          (afterLine tell r n (lines ++ below) ds?).on t₁ := by
      intro r below
      rw [on_nextLine hc, on_bind, hon]
    refine .of_eq (hread _ after) (hread _ after') ?_
    rw [asked_cons, ← hds] at hasks
    have hbelow : ds?.getD [] = [] → asked t₁.game.rules.limits lines ≠ [] := by
      intro hnone
      rw [hnone] at hasks
      rw [hs]
      exact hasks
    match ds? with
    | none => exact ih ht₁ hid₁ hc₁ hfin₁ (hbelow rfl)
    | some [] =>
      exact .of_eq (on_afterLine_nil (by exact hid₁)) (on_afterLine_nil (by exact hid₁))
        (ih ht₁ hid₁ hc₁ hfin₁ (hbelow rfl))
    | some (d :: rest) =>
      exact alike_advance (r := { r with line := some n }) h ht₁ hid₁ hc₁ hfin₁ lines after
        after' d rest

/-- **A request to a run that was begun is answered alike** as long as the lines that are
shared ask for a move. -/
theorem alike_suspended (h : tell.StaysWithin fit SameButStatus) (ht : fit t.audience)
    (hid : t.game.runId = r.runId) (hc : t.game.cancelled = false)
    (hfin : t.game.world.finished = false)
    (hasks : Replay.asks t.game.rules.limits { r with lines } ≠ []) :
    Alike after after' (next tell (.suspended { r with lines := lines ++ after }))
      (next tell (.suspended { r with lines := lines ++ after' })) t := by
  refine Alike.guarded ?_ r.runId
  cases hm : r.moves with
  | nil =>
    refine .of_eq (on_resume_of_nil rfl hid) (on_resume_of_nil rfl hid)
      (alike_nextLine (r := { r with moves := [] }) h ht hid hc hfin ?_)
    rwa [Replay.asks, hm] at hasks
  | cons d rest =>
    rw [resume_of_cons rfl, resume_of_cons rfl]
    exact alike_advance h ht hid hc hfin lines after after' d rest

/-- What comes of a request to a run that was begun, in a game of which all is known. -/
theorem answers_suspended (h : tell.StaysWithin fit SameButStatus) (ht : fit t.audience)
    (after after' : List (Nat × String)) {g : Game} (hg : t.game = g) (hid : g.runId = r.runId)
    (hc : g.cancelled = false) (hfin : g.world.finished = false)
    (hasks : Replay.asks g.rules.limits { r with lines } ≠ []) :
    Alike after after' (next tell (.suspended { r with lines := lines ++ after }))
        (next tell (.suspended { r with lines := lines ++ after' })) t ∧
      Succeeds (next tell (.suspended { r with lines := lines ++ after })) t fun p t' =>
        fit t'.audience ∧ Step g.rules.limits r.runId r.index g
          (Replay.asks g.rules.limits { r with lines } ++ asked g.rules.limits after) p
          t'.game := by
  subst hg
  refine ⟨alike_suspended h ht hid hc hfin hasks, ?_⟩
  rw [← Replay.asks_append]
  exact step_suspended (r := { r with lines := lines ++ after }) h ht hid hc hfin rfl

theorem on_take_ended (n : Nat) (t : Table σ) :
    (take tell (fun _ => Pure.pure ()) n ⟨.ended, []⟩).on t = (.ok [], t) := by
  cases n with
  | zero => rfl
  | succ n => exact on_take_of_none rfl

theorem ne_nil_of_endsAmong {w : World} {moves : List (Option Nat × Direction)}
    (h : w.EndsAmong (moves.map (·.2))) : moves ≠ [] :=
  fun hnil => h.ne_nil (List.map_eq_nil_iff.mpr hnil)

/-- **All requests are answered alike** if the first is and a move that the shared lines ask
for ends the run. -/
theorem on_take_eq (h : tell.StaysWithin fit SameButStatus) {moves : List (Option Nat × Direction)}
    {run run' : Run} {id index n n' : Nat} {g : Game} (hn : moves.length ≤ n)
    (hn' : moves.length ≤ n') (hid : g.runId = id) (hc : g.cancelled = false)
    (hfin : g.world.finished = false)
    (hends : g.world.EndsAmong (moves.map (·.2)))
    (halike : Alike after after' (next tell run) (next tell run') t)
    (hstep : Succeeds (next tell run) t fun p t' => fit t'.audience ∧
      Step g.rules.limits id index g (moves ++ asked g.rules.limits after) p t'.game) :
    (take tell (fun _ => Pure.pure ()) n ⟨run, []⟩).on t =
      (take tell (fun _ => Pure.pure ()) n' ⟨run', []⟩).on t := by
  -- one request for each move; the first move of the list is the one that is made now
  induction moves generalizing run run' t index n n' g with
  | nil => exact absurd rfl hends.ne_nil
  | cons move moves ih =>
    rw [List.length_cons] at hn hn'
    obtain ⟨n, rfl⟩ : ∃ m, n = m + 1 := Nat.exists_eq_succ_of_ne_zero (by omega)
    obtain ⟨n', rfl⟩ : ∃ m, n' = m + 1 := Nat.exists_eq_succ_of_ne_zero (by omega)
    obtain ⟨res, run₁, run₁', t₁, hon, hon', hsame⟩ := halike
    obtain ⟨p, t₁', hon₁, ht₁, hstep⟩ := hstep
    cases hon.symm.trans hon₁
    generalize hg₁ : t₁.game = g₁ at hstep
    generalize hall : move :: moves ++ asked g.rules.limits after = all at hstep
    cases hstep with
    | done s => cases hall
    | @last line d more s hd =>
      -- the move ends both runs, whatever their lines below ask for
      cases hsame
      rw [on_take_of_some hon, on_take_of_some hon', on_bind, on_bind, on_take_ended, on_take_ended]
    | @made line d s hd r hid' hindex =>
      obtain ⟨rfl, hrest⟩ := List.cons_eq_cons.mp hall
      cases hsame with
      | suspended r lines =>
        -- what the run still asks for ends with what the lines below do, so the moves that are
        -- left of the induction are those that the shared lines ask for
        rw [Replay.asks_append] at hrest
        obtain rfl : moves = Replay.asks g.rules.limits { r with lines } :=
          List.append_cancel_right hrest
        subst hid'
        have hends' := hends.of_cons hd
        have hne := ne_nil_of_endsAmong hends'
        have hfin₁ := World.finished_move_of_not_ends hfin hd
        obtain ⟨halike₁, hstep₁⟩ := answers_suspended (r := r) (g := { g.moved d with status := s })
          h ht₁ after after' hg₁ hid hc hfin₁ hne
        have hrest := ih (g := { g.moved d with status := s }) (Nat.le_of_succ_le_succ hn)
          (Nat.le_of_succ_le_succ hn') hid hc hfin₁ hends' halike₁ hstep₁
        rw [on_take_of_some hon, on_take_of_some hon', on_bind, on_bind, hrest]

/-- A run in live mode takes the game alike, whatever its lines are. -/
theorem alike_begun (h : tell.StaysWithin fit SameButStatus) (ht : fit t.audience)
    (hidle : t.game.running = false) (hfin : t.game.world.finished = false)
    {source source' : String} (hsource : numberedLines source = lines ++ after)
    (hsource' : numberedLines source' = lines ++ after')
    (hasks : asked t.game.rules.limits lines ≠ []) :
    Alike after after' (next tell (.live source)) (next tell (.live source')) t := by
  obtain ⟨_, t₁, hon, ht₁, s, hs⟩ := Within.report h "Live mode: executing lines..." .info
    { t with game := t.game.taken } ht
  have hbegun : ∀ source : String, (next tell (.live source)).on t =
      (guarded (t.game.runId + 1) (nextLine tell
        { mode := .live, runId := t.game.runId + 1, lines := numberedLines source }
        (numberedLines source))).on t₁ := by
    intro source
    unfold next
    rw [on_bind, on_begin hidle hfin]
    dsimp only
    rw [on_bind, hon]
  refine .of_eq (hbegun source) (hbegun source') ?_
  rw [hsource, hsource']
  refine Alike.guarded (alike_nextLine (r := { mode := .live, runId := t.game.runId + 1 })
    h ht₁ ?_ ?_ ?_ ?_) _ <;> rw [hs]
  · rfl
  · rfl
  · exact hfin
  · exact hasks

/-- **Lines below the end of a run are not read**: if a move that the lines above ask for ends
the run, it is the same run with any other lines below. -/
theorem on_drain_openLive_eq (h : tell.Passive) (hidle : t.game.running = false)
    (hfin : t.game.world.finished = false) {source source' : String}
    (hblank : Text.blank source = false) (hblank' : Text.blank source' = false)
    (hsource : numberedLines source = lines ++ after)
    (hsource' : numberedLines source' = lines ++ after')
    (hends : t.game.world.EndsAmong ((asked t.game.rules.limits lines).map (·.2))) :
    (openLive tell source >>= fun run => drain tell ⟨run, []⟩).on t =
      (openLive tell source' >>= fun run => drain tell ⟨run, []⟩).on t := by
  have htell := h.staysWithin
  have hasks := ne_nil_of_endsAmong hends
  have hmoves : ∀ {source : String} {after : List (Nat × String)},
      numberedLines source = lines ++ after →
      Run.asks t.game.rules.limits (.live source) =
        asked t.game.rules.limits lines ++ asked t.game.rules.limits after := by
    intro source after hsource
    rw [Run.asks, hsource]
    exact List.flatMap_append
  have henough : ∀ {source : String} {after : List (Nat × String)},
      numberedLines source = lines ++ after →
      (asked t.game.rules.limits lines).length ≤
        Run.movesLeft t.game.rules.limits (.live source) + 1 := by
    intro source after hsource
    rw [← Run.length_asks, hmoves hsource, List.length_append]
    omega
  have hbegun : ¬Run.Started (.live source) := id
  have hstep := step_begun htell (t := t) trivial hidle hfin hbegun
  rw [hmoves hsource] at hstep
  have htake := on_take_eq (g := t.game.taken) htell (henough hsource) (henough hsource') rfl rfl
    hfin hends (alike_begun htell trivial hidle hfin hsource hsource' hasks) hstep
  rw [on_bind, on_openLive hidle hblank, on_bind, on_openLive hidle hblank']
  dsimp only
  unfold drain
  rw [on_bind, on_bind, on_game]
  exact htake

/-- **An undisturbed run is the fold of its moves.** In a game that no run owns and that is not
over, while those who listen do not call back, a script is played as the moves that it asks
for, in batch mode those of the whole script, in live mode those of its lines. The lines below
the one on which a run in live mode ends are not read. -/
theorem replayed_of_passive (h : tell.Passive) (hidle : t.game.running = false)
    (hfin : t.game.world.finished = false) :
    (∀ source ds, Script.commands t.game.rules.limits source = .ok ds →
      Succeeds (openBatch tell source >>= fun run => drain tell ⟨run, []⟩) t fun rs t' =>
        Replayed t.game.taken (ds.map fun d => (none, d)) 0 rs t'.game) ∧
    (∀ source, Text.blank source = false →
      Succeeds (openLive tell source >>= fun run => drain tell ⟨run, []⟩) t fun rs t' =>
        Replayed t.game.taken (asked t.game.rules.limits (numberedLines source)) 0 rs t'.game) ∧
    ∀ source source' lines after after', Text.blank source = false → Text.blank source' = false →
      numberedLines source = lines ++ after → numberedLines source' = lines ++ after' →
      t.game.world.EndsAmong ((asked t.game.rules.limits lines).map (·.2)) →
      (openLive tell source >>= fun run => drain tell ⟨run, []⟩).on t =
        (openLive tell source' >>= fun run => drain tell ⟨run, []⟩).on t :=
  ⟨fun _ _ => replayed_openBatch h hidle hfin, fun _ => replayed_openLive h hidle hfin,
    fun _ _ _ _ _ hblank hblank' hsource hsource' =>
      on_drain_openLive_eq h hidle hfin hblank hblank' hsource hsource'⟩

/-- Nobody listens to the easy maze. -/
def unheard : Table Unit := ⟨Game.unopened {} Preset.easy.maze, ()⟩

/-- In batch mode three moves are asked for, of which the third is blocked by a wall; in live
mode a rejected line comes between two moves, and the second leads back. With the three moves
on the first line, it is the same run with a move below and with a rejected line below. -/
theorem replayed_of_passive_unheard :
    (Listener.silent : Listener Unit).Passive ∧ unheard.game.running = false ∧
      unheard.game.world.finished = false ∧
      Script.commands unheard.game.rules.limits "moveRight(); moveRight(); moveRight();" =
        .ok [.right, .right, .right] ∧
      Text.blank "moveRight();\r\nfor (;;) \x7b\nmoveLeft();" = false ∧
      asked unheard.game.rules.limits (numberedLines "moveRight();\r\nfor (;;) \x7b\nmoveLeft();") =
        [(some 1, .right), (some 3, .left)] ∧
      unheard.game.world.EndsAmong ((asked unheard.game.rules.limits
        [(1, "moveRight(); moveRight(); moveRight();")]).map (·.2)) ∧
      Succeeds (openBatch .silent "moveRight(); moveRight(); moveRight();" >>= fun run =>
        drain .silent ⟨run, []⟩) unheard (fun rs t' =>
          Replayed unheard.game.taken [(none, .right), (none, .right), (none, .right)] 0 rs
            t'.game) ∧
      Succeeds (openLive .silent "moveRight();\r\nfor (;;) \x7b\nmoveLeft();" >>= fun run =>
        drain .silent ⟨run, []⟩) unheard (fun rs t' =>
          Replayed unheard.game.taken [(some 1, .right), (some 3, .left)] 0 rs t'.game) ∧
      (openLive .silent "moveRight(); moveRight(); moveRight();\nmoveUp();" >>= fun run =>
        drain .silent ⟨run, []⟩).on unheard =
      (openLive .silent "moveRight(); moveRight(); moveRight();\nfor (;;)" >>= fun run =>
        drain .silent ⟨run, []⟩).on unheard := by
  have hsilent : (Listener.silent : Listener Unit).Passive := fun n t => ⟨(), rfl⟩
  have hcommands : Script.commands unheard.game.rules.limits
      "moveRight(); moveRight(); moveRight();" = .ok [.right, .right, .right] := by
    decide +kernel
  have hblank : Text.blank "moveRight();\r\nfor (;;) \x7b\nmoveLeft();" = false := by decide +kernel
  have hasked : asked unheard.game.rules.limits
      (numberedLines "moveRight();\r\nfor (;;) \x7b\nmoveLeft();") =
        [(some 1, .right), (some 3, .left)] := by
    decide +kernel
  have hends : unheard.game.world.EndsAmong ((asked unheard.game.rules.limits
      [(1, "moveRight(); moveRight(); moveRight();")]).map (·.2)) := by
    decide +kernel
  have hreplayed := replayed_of_passive (t := unheard) hsilent rfl rfl
  have hunread := hreplayed.2.2 "moveRight(); moveRight(); moveRight();\nmoveUp();"
    "moveRight(); moveRight(); moveRight();\nfor (;;)"
    [(1, "moveRight(); moveRight(); moveRight();")] [(2, "moveUp();")] [(2, "for (;;)")]
    (by decide +kernel) (by decide +kernel) (by decide +kernel) (by decide +kernel) hends
  refine ⟨hsilent, rfl, rfl, hcommands, hblank, hasked, hends, hreplayed.1 _ _ hcommands, ?_,
    hunread⟩
  rw [← hasked]
  exact hreplayed.2.1 _ hblank

end Play

end ScriptedMaze
