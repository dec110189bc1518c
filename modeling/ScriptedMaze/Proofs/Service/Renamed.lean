import ScriptedMaze.Proofs.Service.Errands
import ScriptedMaze.Service.Router

/-!
# Sessions under another name

Whatever a session is asked for, it minds its name only to tell it. So a session that is given
another name does the same, and what it answers is the same but for the name
(`Session.perform_renamed`, `Session.console_renamed`). As nothing comes of it to be given the name
that one has, a session keeps its name (`Session.id_perform`).
-/

namespace ScriptedMaze

namespace Json

/-- A member; if it names a session by `id`, it names it by `id'`. -/
def renamedMember (id id' : String) : String × Json → String × Json
  | ("session_id", .text s) => ("session_id", .text (if s = id then id' else s))
  | member => member

/-- A value in which a session is named by `id'` instead of `id`. -/
def renamed (id id' : String) : Json → Json
  | .object members => .object (members.map (renamedMember id id'))
  | v => v

/-- Members that name no session stay as they are. -/
theorem map_renamedMember {members : List (String × Json)}
    (h : ∀ member ∈ members, member.1 ≠ "session_id") (id id' : String) :
    members.map (renamedMember id id') = members := by
  refine (List.map_congr_left fun member hmember => ?_).trans (List.map_id members)
  unfold renamedMember
  split
  · exact absurd rfl (h _ hmember)
  · rfl

end Json

namespace Service

namespace Answer

/-- An answer in which a session is named by `id'` instead of `id`. -/
def renamed (id id' : String) (a : Answer) : Answer :=
  { a with body := a.body.map (.renamed id id') }

variable {id id' : String}

theorem renamed_fault {message : String} {status : Nat} {more : List (String × Json)}
    (h : ∀ member ∈ more, member.1 ≠ "session_id") :
    (fault message status more).renamed id id' = fault message status more := by
  refine congrArg (fun members => Answer.mk status (some (.object members))) ?_
  exact Json.map_renamedMember (by simpa using h) id id'

theorem renamed_refusal (f : Refusal) : f.answer.renamed id id' = f.answer := by
  unfold Refusal.answer
  split
  · exact renamed_fault (by simp)
  · exact renamed_fault (by simp)
  · exact renamed_fault (by simp)
  · rfl

/-- Where a view fails, no session is named. -/
theorem renamed_send (ρ : Router) (a : Answer) :
    (ρ.send a).renamed id id' = ρ.send (a.renamed id id') := by
  have hstatus : (a.renamed id id').status = a.status := rfl
  unfold Router.send
  rw [hstatus]
  split <;> rfl

end Answer

namespace Session

/-- A session under another name. -/
def renamed (id : String) (x : Session) : Session := { x with id }

variable {α : Type} {x : Session} {id : String}

theorem play_renamed (x : Session) (act : Play Unit α) (id : String) :
    (x.renamed id).play act = ((x.play act).1, (x.play act).2.renamed id) := rfl

theorem id_play (x : Session) (act : Play Unit α) : (x.play act).2.id = x.id := rfl

theorem closeLive_renamed (x : Session) (id : String) :
    (x.renamed id).closeLive = x.closeLive.renamed id := by
  unfold closeLive
  cases hlive : x.live with
  | none => simp [renamed, hlive]
  | some run => simp [renamed, hlive, play]

theorem id_closeLive (x : Session) : x.closeLive.id = x.id := by
  unfold closeLive
  split <;> rfl

/-- **What a session shows of itself is the same under another name.** -/
theorem renamed_payload {more : List (String × Json)}
    (h : ∀ member ∈ more, member.1 ≠ "session_id") (hid : x.id = id) (id' : String) :
    (Answer.ok (x.payload more)).renamed id id' = .ok ((x.renamed id').payload more) := by
  have hname : Json.renamedMember id id' ("session_id", .text x.id) =
      ("session_id", .text id') := by
    rw [hid]
    exact congrArg (fun s => ("session_id", Json.text s)) (if_pos rfl)
  have hrest : (x.game.snapshot message ++ more).map (Json.renamedMember id id') =
      x.game.snapshot message ++ more :=
    Json.map_renamedMember (by simpa [Game.snapshot] using h) id id'
  refine congrArg (fun members => Answer.ok (.object members)) ?_
  rw [List.cons_append, List.map_cons, hname, hrest]
  rfl

/-- The answer of a session and the session itself, under another name. -/
def renamedBoth (id id' : String) (p : Answer × Session) : Answer × Session :=
  (p.1.renamed id id', p.2.renamed id')

theorem renamedBoth_payload {more : List (String × Json)}
    (h : ∀ member ∈ more, member.1 ≠ "session_id") (hid : x.id = id) (id' : String) :
    renamedBoth id id' (.ok (x.payload more), x) =
      (.ok ((x.renamed id').payload more), x.renamed id') :=
  Prod.ext (renamed_payload h hid id') rfl

theorem renamedBoth_refusal (f : Refusal) (x : Session) (id id' : String) :
    renamedBoth id id' (f.answer, x) = (f.answer, x.renamed id') :=
  Prod.ext (Answer.renamed_refusal f) rfl

theorem reset_renamed (x : Session) (id : String) :
    (x.renamed id).reset = renamedBoth x.id id x.reset := by
  unfold reset
  rw [closeLive_renamed, play_renamed]
  have hid := (id_play x.closeLive (Play.reset Listener.silent)).trans (id_closeLive x)
  generalize x.closeLive.play (Play.reset Listener.silent) = p at hid
  exact (renamedBoth_payload (List.forall_mem_nil _) hid id).symm

theorem setDifficulty_renamed (x : Session) (name : Json) (id : String) :
    (x.renamed id).setDifficulty name = renamedBoth x.id id (x.setDifficulty name) := by
  unfold setDifficulty
  rw [closeLive_renamed]
  have hid := id_closeLive x
  generalize x.closeLive = y at hid
  cases name with
  | text name =>
    dsimp only
    rw [play_renamed]
    have hid := (id_play y (Play.setDifficulty Listener.silent name)).trans hid
    generalize y.play (Play.setDifficulty Listener.silent name) = p at hid
    obtain ⟨_ | _, z⟩ := p
    · exact (renamedBoth_refusal _ z x.id id).symm
    · exact (renamedBoth_payload (List.forall_mem_nil _) hid id).symm
  | list _ => rfl
  | object _ => rfl
  | _ => exact (renamedBoth_refusal _ y x.id id).symm

theorem run_renamed (x : Session) (code : Json) (id : String) :
    (x.renamed id).run code = renamedBoth x.id id (x.run code) := by
  unfold run
  cases scriptOf? code with
  | some source =>
    dsimp only
    rw [play_renamed]
    have hid := id_play x (playThrough source)
    generalize x.play (playThrough source) = p at hid
    obtain ⟨_ | _ | _, y⟩ := p
    · exact (renamedBoth_refusal _ y x.id id).symm
    · exact (renamedBoth_refusal _ y x.id id).symm
    · exact (renamedBoth_payload (by simp) hid id).symm
  | none =>
    dsimp only
    rw [play_renamed]
    generalize x.play _ = p
    obtain ⟨_ | _, y⟩ := p
    · exact (renamedBoth_refusal _ y x.id id).symm
    · exact (renamedBoth_refusal _ y x.id id).symm

theorem startLive_renamed (x : Session) (code : Json) (id : String) :
    (x.renamed id).startLive code = renamedBoth x.id id (x.startLive code) := by
  unfold startLive
  cases scriptOf? code with
  | some source =>
    dsimp only
    rw [play_renamed]
    have hid := id_play x (Play.openLive Listener.silent source)
    generalize x.play _ = p at hid
    obtain ⟨_ | run, y⟩ := p
    · exact (renamedBoth_refusal _ y x.id id).symm
    · exact (renamedBoth_payload (List.forall_mem_nil _)
        (show ({ y with live := some run } : Session).id = x.id from hid) id).symm
  | none =>
    dsimp only
    change (if x.game.running = true then _ else _) = _
    split
    · exact (renamedBoth_refusal _ x x.id id).symm
    · exact (renamedBoth_refusal _ x x.id id).symm

theorem nextLive_renamed (x : Session) (id : String) :
    (x.renamed id).nextLive = renamedBoth x.id id x.nextLive := by
  have hlive : (x.renamed id).live = x.live := rfl
  unfold nextLive
  rw [hlive]
  cases x.live with
  | none => exact Prod.ext (Answer.renamed_fault (List.forall_mem_nil _)).symm rfl
  | some run =>
    dsimp only
    rw [play_renamed]
    have hid := id_play x (Play.next Listener.silent run)
    generalize x.play _ = p at hid
    obtain ⟨_ | ⟨report?, run⟩, y⟩ := p
    · rfl
    · dsimp only
      have hid : ({ y with live := some run } : Session).id = x.id := hid
      change (let y := if (report?.isNone || !y.game.running) = true then
          (renamed id { y with live := some run }).closeLive
        else renamed id { y with live := some run }
        (Answer.ok (y.payload _), y)) = _
      rw [closeLive_renamed]
      split
      · exact (renamedBoth_payload (by simp) ((id_closeLive _).trans hid) id).symm
      · exact (renamedBoth_payload (by simp) hid id).symm

/-- A session as it is once its live run has been told to stop, and has said so if it owned the
game. -/
def halted (x : Session) (run : Run) : Session :=
  if x.game.running then
    let act : Play Unit (Option Report × Run) := do
      Play.cancel
      Play.next Listener.silent run
    match x.play act with
    | (.ok (_, run), x) => { x with live := some run }
    | (.error _, x) => { x with live := some .ended }
  else x

theorem stopLive_of_live {run : Run} (h : x.live = some run) :
    x.stopLive = (.ok (x.halted run).closeLive.payload, (x.halted run).closeLive) := by
  unfold stopLive
  rw [h]
  rfl

theorem halted_renamed (x : Session) (run : Run) (id : String) :
    (x.renamed id).halted run = (x.halted run).renamed id := by
  unfold halted
  by_cases hrun : x.game.running = true
  · have hrun' : (x.renamed id).game.running = true := hrun
    rw [if_pos hrun', if_pos hrun]
    dsimp only
    rw [play_renamed]
    generalize x.play _ = p
    obtain ⟨_ | _, y⟩ := p <;> rfl
  · have hrun' : ¬(x.renamed id).game.running = true := hrun
    rw [if_neg hrun', if_neg hrun]

theorem id_halted (x : Session) (run : Run) : (x.halted run).id = x.id := by
  have hself := congrArg Session.id (halted_renamed x run x.id)
  exact hself

theorem stopLive_renamed (x : Session) (id : String) :
    (x.renamed id).stopLive = renamedBoth x.id id x.stopLive := by
  cases hlive : x.live with
  | none =>
    have habsent : ∀ y : Session, y.live = none →
        y.stopLive = (Answer.fault "no_live_run", y) := by
      intro y hy
      unfold stopLive
      rw [hy]
    rw [habsent x hlive, habsent (x.renamed id) hlive]
    exact Prod.ext (Answer.renamed_fault (List.forall_mem_nil _)).symm rfl
  | some run =>
    have hlive' : (x.renamed id).live = some run := hlive
    rw [stopLive_of_live hlive, stopLive_of_live hlive', halted_renamed, closeLive_renamed]
    exact (renamedBoth_payload (List.forall_mem_nil _)
      ((id_closeLive _).trans (id_halted x run)) id).symm

/-- **Whatever a session is asked for, it minds its name only to tell it.** -/
theorem perform_renamed (x : Session) (e : Errand) (id : String) :
    (x.renamed id).perform e = renamedBoth x.id id (x.perform e) := by
  cases e with
  | reset => exact reset_renamed x id
  | setDifficulty name => exact setDifficulty_renamed x name id
  | run code => exact run_renamed x code id
  | startLive code => exact startLive_renamed x code id
  | nextLive => exact nextLive_renamed x id
  | stopLive => exact stopLive_renamed x id

/-- A session that is asked for something keeps its name: it makes no difference to be renamed by
the name that it has. -/
theorem id_perform (x : Session) (e : Errand) : (x.perform e).2.id = x.id :=
  congrArg (fun p => p.2.id) (perform_renamed x e x.id)

theorem console_renamed (x : Session) (command id : String) :
    (x.renamed id).console command = renamedBoth x.id id (x.console command) := by
  have hprinted : ∀ output, (Answer.ok (.object [("status", .text "ok"),
      ("command", .text command), ("output", .text output)])).renamed x.id id =
      Answer.ok (.object [("status", .text "ok"), ("command", .text command),
        ("output", .text output)]) := by
    intro output
    refine congrArg (fun members => Answer.ok (.object members)) ?_
    exact Json.map_renamedMember (by simp) x.id id
  unfold console
  dsimp only
  split
  · exact Prod.ext (hprinted _).symm rfl
  · exact Prod.ext (hprinted _).symm rfl
  · exact Prod.ext (hprinted _).symm rfl
  · rw [play_renamed]
    generalize x.play _ = p
    obtain ⟨_ | _ | _, y⟩ := p
    · exact Prod.ext (Answer.renamed_fault (List.forall_mem_nil _)).symm rfl
    · exact Prod.ext (Answer.renamed_fault (List.forall_mem_nil _)).symm rfl
    · exact Prod.ext (hprinted _).symm rfl
  · exact Prod.ext (Answer.renamed_fault (by simp)).symm rfl

end Session

end Service

end ScriptedMaze
