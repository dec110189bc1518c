import ScriptedMaze.Proofs.Service.Reached

/-!
# Sessions that keep apart

Some requests concern a session: the one that starts it, and those that name it
(`Server.Concerns`). All the others are asked of another session, or start another one, or are
about none. To leave them out makes no difference to the session, and none to what those who talk
to it are answered (`Server.answers_eq_renamed`).

Without the others the session is started under another name, and the requests that name it have
to name that (`Request.Renames`). So it is a matter of two servers, one of which hears everything,
and one of which hears only what concerns the session: it has that session, if it was started yet,
under its new name, and no other (`Server.Alone`). A request that does not concern the session
leaves it as it is (`Server.getElem?_answer_of_not_concerns`); one that does is answered by both
servers alike (`Server.Alone.answer`).

That both are answered alike is due to the sessions, which mind their names only to tell them
(`Session.perform_renamed`).
-/

namespace ScriptedMaze

/-- To drop what has another name makes no difference to what is found under a name. -/
theorem find?_filter_ne {α : Type} {name other : String} (h : other ≠ name)
    (members : List (String × α)) :
    (members.filter (·.1 ≠ name)).find? (·.1 = other) = members.find? (·.1 = other) := by
  rw [List.find?_filter]
  congr 1
  funext member
  by_cases hm : member.1 = other
  · simp [hm, h]
  · simp [hm]

namespace Json

/-- A value without the members of a name. -/
def without (name : String) : Json → Json
  | .object members => .object (members.filter (·.1 ≠ name))
  | v => v

theorem get?_without {name other : String} (h : other ≠ name) (v : Json) :
    (v.without name).get? other = v.get? other := by
  cases v with
  | object members => exact congrArg (Option.map (·.2)) (find?_filter_ne h members)
  | _ => rfl

end Json

namespace Service

/-! ### The session that a request names -/

/-- What is asked for at a path, with the contents of the body. -/
def Errand.at? (path : String) (content : Json) : Option Errand :=
  (View.at? path).bind (View.errand? · content)

theorem Errand.at?_eq_some_iff {path : String} {content : Json} {e : Errand} :
    at? path content = some e ↔ ∃ v, View.at? path = some v ∧ v.errand? content = some e :=
  Option.bind_eq_some_iff

namespace Request

/-- The request is to be shown a session, and its query tells which one. -/
def Looks (r : Request) : Prop :=
  View.at? r.address.path = some .state ∨ View.at? r.address.path = some .console

instance (r : Request) : Decidable r.Looks := inferInstanceAs (Decidable (_ ∨ _))

/-- What a request says about which session it is about, at a path where a server looks for it. -/
def label? (r : Request) : Option Json :=
  if r.Looks then (r.address.param? "session_id").map .text
  else
    match r.content with
    | .ok c => (Errand.at? r.address.path c).bind fun _ => c.get? "session_id"
    | .error _ => none

/-- **The session that a request names**, whatever its method is. -/
def names? (r : Request) : Option String :=
  match r.label? with
  | some (.text id) => if id = "" then none else some id
  | _ => none

/-- **A request is the same as another one, but for the name of a session**: where that one names
the session by `id`, it names it by `id'`. -/
structure Renames (id id' : String) (r r' : Request) : Prop where
  method : r'.method = r.method
  path : r'.address.path = r.address.path
  query : r'.address.query.filter (·.1 ≠ "session_id") =
    r.address.query.filter (·.1 ≠ "session_id")
  content : r'.content.map (Json.without "session_id") = r.content.map (Json.without "session_id")
  names : r'.names? = r.names?.map fun name => if name = id then id' else name

variable {r r' : Request} {id id' name : String}

theorem names?_eq_some_iff : r.names? = some id ↔ id ≠ "" ∧ r.label? = some (.text id) := by
  unfold names?
  constructor
  · intro h
    split at h
    · rename_i name hlabel
      split at h
      · cases h
      · rename_i hne
        cases h
        exact ⟨hne, hlabel⟩
    · cases h
  · rintro ⟨hne, hlabel⟩
    rw [hlabel]
    exact if_neg hne

theorem label?_of_looks (hr : r.Looks) :
    r.label? = some (.text id) ↔ r.address.param? "session_id" = some id := by
  unfold label?
  rw [if_pos hr]
  simp

/-- Whoever names a session in a body asks it for something. -/
theorem label?_of_not_looks (hr : ¬r.Looks) :
    r.label? = some (.text id) ↔
      ∃ members e, r.content = .ok (.object members) ∧
        Errand.at? r.address.path (.object members) = some e ∧
        (Json.object members).get? "session_id" = some (.text id) := by
  unfold label?
  rw [if_neg hr]
  constructor
  · intro h
    split at h
    · rename_i c hcontent
      obtain ⟨e, hat, hget⟩ := Option.bind_eq_some_iff.mp h
      cases c with
      | object members => exact ⟨members, e, hcontent, hat, hget⟩
      | _ => cases hget
    · cases h
  · rintro ⟨members, e, hcontent, hat, hget⟩
    rw [hcontent]
    dsimp only
    rw [hat]
    exact hget

theorem not_looks_of_at? {c : Json} {e : Errand} (h : Errand.at? r.address.path c = some e) :
    ¬r.Looks := by
  obtain ⟨v, hv, he⟩ := Errand.at?_eq_some_iff.mp h
  rintro (hlooks | hlooks)
  · cases hv.symm.trans hlooks
    cases he
  · cases hv.symm.trans hlooks
    cases he

/-- A request that asks a session for something names it. -/
theorem names?_of_errand? {ρ : Router} {e : Errand} (h : ρ.errand? r = some (id, e)) :
    r.names? = some id := by
  obtain ⟨v, members, hroute, hcontent, hname, hid, he⟩ := Router.exists_of_errand? h
  have hat : Errand.at? r.address.path (.object members) = some e :=
    Errand.at?_eq_some_iff.mpr ⟨v, View.at?_eq_some_iff.mpr (ρ.path_of_view hroute), he⟩
  refine names?_eq_some_iff.mpr ⟨hid, ?_⟩
  exact (label?_of_not_looks (not_looks_of_at? hat)).mpr ⟨members, e, hcontent, hat, hname⟩

namespace Renames

variable (h : Renames id id' r r')

include h

theorem looks : r'.Looks ↔ r.Looks := by
  unfold Looks
  rw [h.path]

theorem param? (hname : name ≠ "session_id") : r'.address.param? name = r.address.param? name := by
  unfold Address.param?
  rw [← find?_filter_ne hname, h.query, find?_filter_ne hname]

theorem get? {c c' : Json} (hc : r.content = .ok c) (hc' : r'.content = .ok c')
    (hname : name ≠ "session_id") : c'.get? name = c.get? name := by
  have hsame := h.content
  rw [hc, hc'] at hsame
  have hsame : c'.without "session_id" = c.without "session_id" := Except.ok.inj hsame
  rw [← Json.get?_without hname, hsame, Json.get?_without hname]

theorem codeIn {c c' : Json} (hc : r.content = .ok c) (hc' : r'.content = .ok c') :
    Server.codeIn c' = Server.codeIn c := by
  unfold Server.codeIn
  rw [h.get? hc hc' (by decide)]

/-- What a session is asked for does not depend on the name that it is called by. -/
theorem at? {c c' : Json} (hc : r.content = .ok c) (hc' : r'.content = .ok c') (path : String) :
    Errand.at? path c' = Errand.at? path c := by
  have hsame : ∀ v : View, v.errand? c' = v.errand? c := by
    intro v
    unfold View.errand?
    rw [h.codeIn hc hc', h.get? hc hc' (by decide)]
  exact congrArg (View.at? path).bind (funext hsame)

theorem names?_eq (hr : r.names? = some id) : r'.names? = some id' := by
  rw [h.names, hr]
  exact congrArg some (if_pos rfl)

/-- **Both requests are for the same**, which is done by looking for the session that they name and
doing something to it; and to the session under its new name the same is done. -/
theorem exists_ask (hr : r.names? = some id) :
    ∃ v f f', View.at? r.address.path = some v ∧
      (∀ s : Server, s.ask r v = s.answerIn (.text id) f) ∧
      (∀ s : Server, s.ask r' v = s.answerIn (.text id') f') ∧
      ∀ x, x.id = id → f' (x.renamed id') = Session.renamedBoth id id' (f x) ∧ (f x).2.id = id := by
  obtain ⟨-, hlabel⟩ := names?_eq_some_iff.mp hr
  obtain ⟨-, hlabel'⟩ := names?_eq_some_iff.mp (h.names?_eq hr)
  by_cases hlooks : r.Looks
  · have hid := (label?_of_looks hlooks).mp hlabel
    have hid' := (label?_of_looks (h.looks.mpr hlooks)).mp hlabel'
    have hcommand : r'.address.param? "command" = r.address.param? "command" :=
      h.param? (by decide)
    rcases hlooks with hview | hview
    · refine ⟨_, fun x => (.ok x.payload, x), fun x => (.ok x.payload, x), hview,
        fun s => Server.answerQuery_eq hid s _, fun s => Server.answerQuery_eq hid' s _, ?_⟩
      rintro x rfl
      exact ⟨(Session.renamedBoth_payload (List.forall_mem_nil _) rfl id').symm, rfl⟩
    · refine ⟨_, fun x => x.console ((r.address.param? "command").getD ""),
        fun x => x.console ((r'.address.param? "command").getD ""), hview,
        fun s => Server.answerQuery_eq hid s _, fun s => Server.answerQuery_eq hid' s _, ?_⟩
      rintro x rfl
      rw [hcommand]
      exact ⟨Session.console_renamed x _ id', congrArg Session.id (Server.console_snd x _)⟩
  · obtain ⟨members, e, hcontent, hat, hget⟩ := (label?_of_not_looks hlooks).mp hlabel
    obtain ⟨members', e', hcontent', hat', hget'⟩ :=
      (label?_of_not_looks fun hl => hlooks (h.looks.mp hl)).mp hlabel'
    have hsame := h.at? hcontent hcontent' r.address.path
    obtain ⟨v, hview, he⟩ := Errand.at?_eq_some_iff.mp hat
    obtain ⟨errand, herrand, hask⟩ := Server.exists_ask_of_errand? he
    have hat_eq : ∀ c, Errand.at? r.address.path c = some (errand c) := fun c =>
      Errand.at?_eq_some_iff.mpr ⟨v, hview, herrand c⟩
    rw [hat_eq, hat_eq] at hsame
    have hsame : errand (.object members') = errand (.object members) := Option.some.inj hsame
    refine ⟨v, fun x => x.perform (errand (.object members)),
      fun x => x.perform (errand (.object members')), hview,
      fun s => (hask s r).trans (Server.answerBody_eq hcontent hget s _),
      fun s => (hask s r').trans (Server.answerBody_eq hcontent' hget' s _), ?_⟩
    rintro x rfl
    rw [hsame]
    exact ⟨Session.perform_renamed x _ id', Session.id_perform x _⟩

end Renames

end Request

namespace Server

variable {k : Nat} {s p : Server} {r r' : Request} {id : String} {x : Session}

/-! ### Sessions by number -/

/-- The `n`-th session has the `n`-th name. -/
def Named (s : Server) : Prop := ∀ n x, s.sessions[n]? = some x → x.id = s.nameOf n

theorem getElem?_update (s : Server) (x : Session) (n : Nat) :
    (s.update x).sessions[n]? = s.sessions[n]?.map fun old => if old.id = x.id then x else old :=
  List.getElem?_map

theorem length_update (s : Server) (x : Session) :
    (s.update x).sessions.length = s.sessions.length :=
  List.length_map _

theorem Named.update (h : s.Named) (x : Session) : (s.update x).Named := by
  intro n y hy
  rw [getElem?_update] at hy
  obtain ⟨old, hold, rfl⟩ := Option.map_eq_some_iff.mp hy
  refine Eq.trans ?_ (h n old hold)
  split
  · rename_i hid
    exact hid.symm
  · rfl

/-- A session that is started has the next name. -/
theorem Named.started (h : s.Named) (hx : x.id = s.nameOf s.sessions.length) :
    ({ s with sessions := s.sessions ++ [x] } : Server).Named := by
  intro n y hy
  rcases Nat.lt_trichotomy n s.sessions.length with hn | rfl | hn
  · rw [List.getElem?_append_left hn] at hy
    exact h n y hy
  · rw [List.getElem?_concat_length] at hy
    cases hy
    exact hx
  · rw [List.getElem?_eq_none (by rw [List.length_append]; exact hn)] at hy
    cases hy

theorem Named.answer (h : s.Named) (r : Request) : (s.answer r).2.Named := by
  have hanswered := s.answered r
  generalize s.answer r = q at hanswered
  obtain ⟨a, s'⟩ := q
  cases hanswered with
  | kept _ => exact h
  | shown _ _ => exact h.update _
  | started _ named _ _ _ => exact h.started named
  | asked _ _ => exact h.update _

/-- **Under the `n`-th name the `n`-th session is found**, if no name is given twice. -/
theorem Named.find?_nameOf (h : s.Named) (hnames : s.nameOf.Injective) (n : Nat) :
    s.find? (s.nameOf n) = s.sessions[n]? := by
  cases hx : s.sessions[n]? with
  | none =>
    refine List.find?_eq_none.mpr fun y hy => ?_
    obtain ⟨m, hm⟩ := List.mem_iff_getElem?.mp hy
    have hne : m ≠ n := by
      rintro rfl
      cases hx.symm.trans hm
    have hid : y.id ≠ s.nameOf n := by
      rw [h m y hm]
      exact hnames.ne hne
    simpa using hid
  | some x =>
    obtain ⟨hn, rfl⟩ := List.getElem?_eq_some_iff.mp hx
    refine List.find?_eq_some_iff_getElem.mpr ⟨by simpa using h n _ hx, n, hn, rfl, ?_⟩
    intro m hm
    have hmx := List.getElem?_eq_getElem (hm.trans hn)
    have hid : s.sessions[m].id ≠ s.nameOf n := by
      rw [h m _ hmx]
      exact hnames.ne hm.ne
    simpa using hid

/-! ### Requests that concern a session -/

/-- **A request concerns the `k`-th session** if it names it, or if it starts it. -/
def Concerns (s : Server) (k : Nat) (r : Request) : Prop :=
  r.names? = some (s.nameOf k) ∨
    s.sessions.length = k ∧ (s.answer r).2.sessions.length = k + 1

instance (s : Server) (k : Nat) (r : Request) : Decidable (s.Concerns k r) :=
  inferInstanceAs (Decidable (_ ∨ _))

/-- The requests that concern the `k`-th session, with what they are answered. -/
def heard (s : Server) (k : Nat) : List Request → List (Request × Answer)
  | [] => []
  | r :: rest =>
    let more := (s.answer r).2.heard k rest
    if s.Concerns k r then (r, (s.answer r).1) :: more else more

/-- **A request that does not concern a session leaves it as it is.** -/
theorem getElem?_answer_of_not_concerns (h : s.Named) (hnames : s.nameOf.Injective)
    (hr : ¬s.Concerns k r) : (s.answer r).2.sessions[k]? = s.sessions[k]? := by
  have hkept : ∀ y : Session, (∀ x, s.sessions[k]? = some x → x.id = y.id → x = y) →
      (s.update y).sessions[k]? = s.sessions[k]? := by
    intro y hy
    rw [getElem?_update]
    cases hx : s.sessions[k]? with
    | none => rfl
    | some x =>
      rw [Option.map_some]
      split
      · rename_i hid
        rw [hy x hx hid]
      · rfl
  unfold Concerns at hr
  have hanswered := s.answered r
  generalize s.answer r = q at hanswered hr ⊢
  obtain ⟨a, s'⟩ := q
  cases hanswered with
  | kept _ => rfl
  | @shown y _ found =>
    refine hkept y fun x hx hid => ?_
    have hfound := h.find?_nameOf hnames k
    rw [hx, ← h k x hx, hid, found] at hfound
    exact (Option.some.inj hfound).symm
  | @started y _ _ _ _ _ _ =>
    -- it is not the `k`-th that is started, and those that there are keep their places
    have hlength : k ≠ s.sessions.length := by
      rintro rfl
      exact hr (.inr ⟨rfl, List.length_append⟩)
    rcases Nat.lt_or_gt_of_ne hlength with hk | hk
    · exact List.getElem?_append_left hk
    · rw [List.getElem?_eq_none (by rw [List.length_append]; exact hk),
        List.getElem?_eq_none hk.le]
  | @asked id e y asks found =>
    -- otherwise the request would name the `k`-th session, and so concern it
    refine hkept _ fun x hx hid => absurd (Request.names?_of_errand? asks) fun hname => ?_
    refine hr (.inl ?_)
    rw [hname, ← h k x hx, hid, Session.id_perform, id_eq_of_find? found]

/-! ### New sessions -/

/-- Only a request for a new session makes them more. -/
theorem starts_of_length (h : (s.answer r).2.sessions.length ≠ s.sessions.length) :
    s.router.Starts r := by
  have hanswered := s.answered r
  generalize s.answer r = q at hanswered h
  obtain ⟨a, s'⟩ := q
  cases hanswered with
  | kept _ => exact absurd rfl h
  | shown _ _ => exact absurd (length_update s _) h
  | started starts _ _ _ _ => exact starts
  | asked _ _ => exact absurd (length_update s _) h

theorem firstMaze_without (s : Server) (v : Json) :
    s.firstMaze (v.without "session_id") = s.firstMaze v := by
  cases v with
  | object members =>
    have hget : Json.get? "difficulty" (.object (members.filter (·.1 ≠ "session_id"))) =
        Json.get? "difficulty" (.object members) := Json.get?_without (by decide) (.object members)
    unfold firstMaze Json.without
    dsimp only
    rw [hget]
  | _ => rfl

theorem firstMaze_of_settings (h : p.settings = s.settings) (v : Json) :
    p.firstMaze v = s.firstMaze v := by
  unfold firstMaze
  rw [h]

/-- A new session begins with the same maze, whichever session the request may name besides. -/
theorem firstMaze_of_renames {id' : String} (h : p.settings = s.settings)
    (hr : r.Renames id id' r') :
    ((r'.content.mapError Json.Fault.message) >>= p.firstMaze) =
      ((r.content.mapError Json.Fault.message) >>= s.firstMaze) := by
  have hwithout : ∀ content : Except Json.Fault Json,
      ((content.mapError Json.Fault.message) >>= s.firstMaze) =
        (((content.map (Json.without "session_id")).mapError Json.Fault.message) >>=
          s.firstMaze) := by
    intro content
    cases content with
    | error f => rfl
    | ok v => exact (firstMaze_without s v).symm
  rw [funext (firstMaze_of_settings h), hwithout, hr.content, ← hwithout]

/-! ### The server that hears of one session only -/

/-- **A server that has the `k`-th session of another one, and nothing else.** The session has the
first name that it gives. -/
structure Alone (k : Nat) (s p : Server) : Prop where
  settings : p.settings = s.settings
  router : p.router = s.router
  sessions : p.sessions = (s.sessions[k]?.map (Session.renamed (p.nameOf 0))).toList

namespace Alone

/-- A request that does not concern the session can be left out. -/
theorem skip (h : Alone k s p) (hs : s.Named) (hnames : s.nameOf.Injective)
    (hr : ¬s.Concerns k r) : Alone k (s.answer r).2 p where
  settings := h.settings.trans (settings_answer s r).symm
  router := h.router.trans (router_answer s r).symm
  sessions := by rw [getElem?_answer_of_not_concerns hs hnames hr, h.sessions]

theorem find? (h : Alone k s p) :
    p.find? (p.nameOf 0) = s.sessions[k]?.map (Session.renamed (p.nameOf 0)) := by
  unfold Server.find?
  rw [h.sessions]
  cases s.sessions[k]? with
  | none => rfl
  | some x => exact List.find?_cons_of_pos (by simp [Session.renamed])

/-- What is done to the session under either name keeps the two servers in step. -/
theorem answerIn (h : Alone k s p) (hs : s.Named) (hnames : s.nameOf.Injective)
    (hid : s.nameOf k ≠ "") (hid' : p.nameOf 0 ≠ "") {f f' : Session → Answer × Session}
    (hf : ∀ x, x.id = s.nameOf k →
      f' (x.renamed (p.nameOf 0)) = Session.renamedBoth (s.nameOf k) (p.nameOf 0) (f x) ∧
        (f x).2.id = s.nameOf k) :
    (p.answerIn (.text (p.nameOf 0)) f').1 =
        (s.answerIn (.text (s.nameOf k)) f).1.renamed (s.nameOf k) (p.nameOf 0) ∧
      Alone k (s.answerIn (.text (s.nameOf k)) f).2 (p.answerIn (.text (p.nameOf 0)) f').2 := by
  have hfound := hs.find?_nameOf hnames k
  have hfound' := h.find?
  cases hx : s.sessions[k]? with
  | none =>
    rw [hx] at hfound hfound'
    rw [answerIn_text hid, hfound, answerIn_text hid', hfound']
    exact ⟨(Answer.renamed_fault (List.forall_mem_nil _)).symm, h⟩
  | some x =>
    obtain ⟨hboth, hkept⟩ := hf x (hs k x hx)
    rw [hx] at hfound hfound'
    rw [answerIn_of_find? hid hfound, answerIn_of_find? hid' hfound', hboth]
    refine ⟨rfl, h.settings, h.router, ?_⟩
    rw [getElem?_update, hx, Option.map_some, if_pos ((hs k x hx).trans hkept.symm)]
    unfold Server.update
    dsimp only
    rw [h.sessions, hx]
    simp [Session.renamed, Session.renamedBoth]

/-- **A request that names the session is answered alike.** -/
theorem answer_of_names? (h : Alone k s p) (hs : s.Named) (hnames : s.nameOf.Injective)
    (hr : r.names? = some (s.nameOf k)) (hrr : r.Renames (s.nameOf k) (p.nameOf 0) r') :
    (p.answer r').1 = (s.answer r).1.renamed (s.nameOf k) (p.nameOf 0) ∧
      Alone k (s.answer r).2 (p.answer r').2 := by
  obtain ⟨hid, -⟩ := Request.names?_eq_some_iff.mp hr
  obtain ⟨hid', -⟩ := Request.names?_eq_some_iff.mp (hrr.names?_eq hr)
  obtain ⟨v, f, f', hview, hask, hask', hf⟩ := hrr.exists_ask hr
  obtain ⟨hanswer, hafter⟩ := h.answerIn hs hnames hid hid' hf
  rw [← hask, ← hask'] at hanswer hafter
  have hv : ∀ {w : View}, w.path = r.address.path → w = v := fun hw =>
    Option.some.inj ((View.at?_eq_some_iff.mpr hw).symm.trans hview)
  unfold Server.answer
  rw [hrr.path, hrr.method, h.router]
  split
  · rename_i w hroute
    obtain rfl := hv (s.router.path_of_view hroute)
    refine ⟨?_, hafter⟩
    dsimp only
    rw [hanswer, Answer.renamed_send]
  · rename_i w hroute
    obtain rfl := hv (s.router.path_of_head hroute)
    refine ⟨?_, hafter⟩
    dsimp only
    rw [hanswer, ← Answer.renamed_send]
    rfl
  · exact ⟨rfl, h⟩

/-- **The session is started alike.** -/
theorem answer_of_length (h : Alone k s p) (hlength : s.sessions.length = k)
    (hstarted : (s.answer r).2.sessions.length = k + 1)
    (hrr : r.Renames (s.nameOf k) (p.nameOf 0) r') :
    (p.answer r').1 = (s.answer r).1.renamed (s.nameOf k) (p.nameOf 0) ∧
      Alone k (s.answer r).2 (p.answer r').2 := by
  have hstarts : s.router.Starts r := starts_of_length (s := s) (by omega)
  have hstarts' : p.router.Starts r' := by
    unfold Router.Starts
    rw [h.router, hrr.method, hrr.path]
    exact hstarts
  rw [answer_of_starts hstarts] at hstarted ⊢
  rw [answer_of_starts hstarts']
  have hrules : p.rules = s.rules := by
    unfold rules
    rw [h.settings]
  unfold start at hstarted ⊢
  rw [firstMaze_of_renames h.settings hrr, hrules]
  generalize (r.content.mapError Json.Fault.message) >>= s.firstMaze = maze? at hstarted ⊢
  cases maze? with
  | error message =>
    dsimp only at hstarted
    omega
  | ok maze =>
    -- before the session is started, the other server has none
    have hnone : s.sessions[k]? = none := List.getElem?_eq_none hlength.le
    have hempty : p.sessions = [] := by
      rw [h.sessions, hnone]
      rfl
    dsimp only
    rw [hempty]
    subst hlength
    refine ⟨?_, h.settings, h.router, ?_⟩
    · rw [h.router, Answer.renamed_send]
      refine congrArg s.router.send (Eq.symm ?_)
      exact Session.renamed_payload (List.forall_mem_nil _) rfl (p.nameOf 0)
    · rw [List.getElem?_concat_length]
      rfl

/-- **One request keeps the two servers in step**, and is answered alike. -/
theorem answer (h : Alone k s p) (hs : s.Named) (hnames : s.nameOf.Injective)
    (hr : s.Concerns k r) (hrr : r.Renames (s.nameOf k) (p.nameOf 0) r') :
    (p.answer r').1 = (s.answer r).1.renamed (s.nameOf k) (p.nameOf 0) ∧
      Alone k (s.answer r).2 (p.answer r').2 := by
  rcases hr with hr | ⟨hlength, hstarted⟩
  · exact h.answer_of_names? hs hnames hr hrr
  · exact h.answer_of_length hlength hstarted hrr

/-- **So do all requests**, one after the other, of which one server hears those that concern the
session. -/
theorem answers (h : Alone k s p) (hs : s.Named) (hnames : s.nameOf.Injective)
    {rs rs' : List Request}
    (hrs : List.Forall₂ (Request.Renames (s.nameOf k) (p.nameOf 0))
      ((s.heard k rs).map Prod.fst) rs') :
    (p.answers rs').1 = (s.heard k rs).map (fun q => q.2.renamed (s.nameOf k) (p.nameOf 0)) ∧
      Alone k (s.answers rs).2 (p.answers rs').2 := by
  induction rs generalizing s p rs' with
  | nil =>
    cases hrs
    exact ⟨rfl, h⟩
  | cons r rs ih =>
    have hname := congrFun (nameOf_answer s r) k
    have hnamed := hs.answer r
    have hinjective : (s.answer r).2.nameOf.Injective := by rwa [nameOf_answer]
    unfold heard at hrs ⊢
    by_cases hr : s.Concerns k r
    · rw [if_pos hr] at hrs ⊢
      obtain _ | ⟨hrr, hrest⟩ := hrs
      rename_i r' rest'
      obtain ⟨hanswer, hafter⟩ := h.answer hs hnames hr hrr
      have hname' := congrFun (nameOf_answer p r') 0
      rw [← hname, ← hname'] at hrest
      obtain ⟨hmore, hend⟩ := ih hafter hnamed hinjective hrest
      rw [hname, hname'] at hmore
      refine ⟨?_, hend⟩
      rw [List.map_cons, ← hanswer, ← hmore]
      rfl
    · rw [if_neg hr] at hrs ⊢
      rw [← hname] at hrs ⊢
      exact ih (h.skip hs hnames hr) hnamed hinjective hrs

end Alone

/-! ### Leaving out what is not about a session -/

variable {settings : Settings} {nameOf nameOf' : Nat → String} {router : Router}

/-- **Sessions do not interfere.** If no name is given twice, then to leave out all requests that
name another session, start another one, or name none makes no difference to the `k`-th session:
but for its name, the requests that are left are answered the same, and in the end it has the same
game and the same live run. -/
theorem answers_eq_renamed (hnames : nameOf.Injective) (k : Nat) {rs rs' : List Request}
    (hrs : List.Forall₂ (Request.Renames (nameOf k) (nameOf' 0))
      ((({ settings, nameOf, router } : Server).heard k rs).map Prod.fst) rs') :
    (({ settings, nameOf := nameOf', router } : Server).answers rs').1 =
        (({ settings, nameOf, router } : Server).heard k rs).map
          (fun q => q.2.renamed (nameOf k) (nameOf' 0)) ∧
      (({ settings, nameOf := nameOf', router } : Server).answers rs').2.sessions =
        ((({ settings, nameOf, router } : Server).answers rs).2.sessions[k]?.map
          (Session.renamed (nameOf' 0))).toList := by
  have halone : Alone k { settings, nameOf, router } { settings, nameOf := nameOf', router } := ⟨rfl, rfl, rfl⟩
  have hnamed : ({ settings, nameOf, router } : Server).Named := fun n x hx => by cases hx
  obtain ⟨hanswers, hend⟩ := halone.answers hnamed hnames hrs
  have hsessions := hend.sessions
  rw [nameOf_answers] at hsessions
  exact ⟨hanswers, hsessions⟩

/-! ### Two sessions side by side -/

/-- Requests are the same if they have the same method, address, and bytes. -/
instance : DecidableEq Request := fun r r' =>
  decidable_of_iff
    (r.method = r'.method ∧ r.address = r'.address ∧ r.body.data = r'.body.data) <| by
    obtain ⟨method, address, ⟨data⟩⟩ := r
    obtain ⟨method', address', ⟨data'⟩⟩ := r'
    simp

/-- A name of `n + 1` letters. -/
def longer (n : Nat) : String := String.ofList (List.replicate (n + 1) 'a')

theorem longer_injective : longer.Injective := by
  intro m n h
  have hlength := congrArg (fun s => s.toList.length) h
  simpa [longer] using hlength

/-- A client asks the session of a name for something; `more` stands behind its name. -/
def postedTo (id path : String) (more : String := "") : Request where
  method := "POST"
  address := { path }
  body := ("\x7b\"session_id\": \"" ++ id ++ "\"" ++ more ++ "\x7d").toUTF8

/-- A client wants to be shown the session of a name. -/
def shownOf (id : String) : Request where
  method := "GET"
  address := { path := "/api/session/state", query := [("session_id", id)] }

/-- The requests of two clients, who both have a live run, and of one who asks for no session. -/
def crowd : List Request := [
  postedTo "" "/api/session/start",
  postedTo "a" "/api/session/live/start" ", \"code\": \"moveLeft();\"",
  postedTo "" "/api/session/start",
  postedTo "aa" "/api/session/live/start" ", \"code\": \"moveRight();\"",
  postedTo "a" "/api/session/live/next",
  postedTo "aa" "/api/session/live/next",
  postedTo "" "/api/session/reset",
  postedTo "a" "/api/session/reset",
  shownOf "aa"]

/-- The requests of the second client, whose session is named `b`. -/
def single : List Request := [
  postedTo "" "/api/session/start",
  postedTo "b" "/api/session/live/start" ", \"code\": \"moveRight();\"",
  postedTo "b" "/api/session/live/next",
  shownOf "b"]

theorem heard_crowd :
    (({ settings := {}, nameOf := longer } : Server).heard 1 crowd).map Prod.fst = [
      postedTo "" "/api/session/start",
      postedTo "aa" "/api/session/live/start" ", \"code\": \"moveRight();\"",
      postedTo "aa" "/api/session/live/next",
      shownOf "aa"] := by
  decide +kernel

theorem names?_postedTo {path more : String} {rest : List (String × Json)} {e : Errand}
    (hcontent : (postedTo id path more).content =
      .ok (.object (("session_id", .text id) :: rest)))
    (hpath : Errand.at? path (.object (("session_id", .text id) :: rest)) = some e)
    (hid : id ≠ "") : (postedTo id path more).names? = some id := by
  refine Request.names?_eq_some_iff.mpr ⟨hid, ?_⟩
  exact (Request.label?_of_not_looks (Request.not_looks_of_at? hpath)).mpr
    ⟨_, e, hcontent, hpath, rfl⟩

theorem renames_postedTo {path more : String} {rest : List (String × Json)} {e e' : Errand}
    (hcontent : (postedTo "aa" path more).content =
      .ok (.object (("session_id", .text "aa") :: rest)))
    (hcontent' : (postedTo "b" path more).content =
      .ok (.object (("session_id", .text "b") :: rest)))
    (hpath : Errand.at? path (.object (("session_id", .text "aa") :: rest)) = some e)
    (hpath' : Errand.at? path (.object (("session_id", .text "b") :: rest)) = some e') :
    (postedTo "aa" path more).Renames "aa" "b" (postedTo "b" path more) where
  method := rfl
  path := rfl
  query := rfl
  content := by
    rw [hcontent, hcontent']
    rfl
  names := by
    rw [names?_postedTo hcontent hpath (by decide), names?_postedTo hcontent' hpath' (by decide)]
    rfl

theorem renames_single :
    List.Forall₂ (Request.Renames "aa" "b")
      ((({ settings := {}, nameOf := longer } : Server).heard 1 crowd).map Prod.fst) single := by
  have hstart : (postedTo "" "/api/session/start").names? = none := by decide +kernel
  have htake : Text.decode
      (postedTo "aa" "/api/session/live/start" ", \"code\": \"moveRight();\"").body =
        some ("\x7b\"session_id\": \"aa\", \"code\": \"moveRight();\"\x7d".toList.map .char) := by
    decide +kernel
  have htake' : Text.decode
      (postedTo "b" "/api/session/live/start" ", \"code\": \"moveRight();\"").body =
        some ("\x7b\"session_id\": \"b\", \"code\": \"moveRight();\"\x7d".toList.map .char) := by
    decide +kernel
  have hnext : Text.decode (postedTo "aa" "/api/session/live/next").body =
      some ("\x7b\"session_id\": \"aa\"\x7d".toList.map .char) := by decide +kernel
  have hnext' : Text.decode (postedTo "b" "/api/session/live/next").body =
      some ("\x7b\"session_id\": \"b\"\x7d".toList.map .char) := by decide +kernel
  rw [heard_crowd]
  refine .cons ⟨rfl, rfl, rfl, rfl, ?_⟩ (.cons ?_ (.cons ?_ (.cons ⟨rfl, rfl, ?_, rfl, ?_⟩ .nil)))
  · rw [hstart]
    rfl
  · exact renames_postedTo (Request.content_eq_object htake (by cbv) (List.cons_ne_nil _ _))
      (Request.content_eq_object htake' (by cbv) (List.cons_ne_nil _ _)) rfl rfl
  · exact renames_postedTo (Request.content_eq_object hnext (by cbv) (List.cons_ne_nil _ _))
      (Request.content_eq_object hnext' (by cbv) (List.cons_ne_nil _ _)) rfl rfl
  · decide +kernel
  · decide +kernel

/-- The second client is answered as if it were alone, and its session, halfway through a live run,
is the same. -/
theorem answers_eq_renamed_single :
    (({ settings := {}, nameOf := fun _ => "b" } : Server).answers single).1 =
        (({ settings := {}, nameOf := longer } : Server).heard 1 crowd).map
          (fun q => q.2.renamed "aa" "b") ∧
      (({ settings := {}, nameOf := fun _ => "b" } : Server).answers single).2.sessions =
        ((({ settings := {}, nameOf := longer } : Server).answers crowd).2.sessions[1]?.map
          (Session.renamed "b")).toList ∧
      ((({ settings := {}, nameOf := fun _ => "b" } : Server).answers single).2.find? "b").any
        (fun x => x.game.running && x.live.isSome) = true :=
  and_assoc.mp ⟨answers_eq_renamed longer_injective 1 renames_single, by decide +kernel⟩

end Server

end Service

end ScriptedMaze
