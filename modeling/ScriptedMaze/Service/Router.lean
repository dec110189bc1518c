import ScriptedMaze.Service.Request

/-!
# Views and routers

What the service can do is divided into **views** (`View`). Each has a path, and a
method by which it is asked for.

Which view a request is for is not decided by the service but by the **router** in
front of it, and so is what a client is sent if it is for none, or if a view fails.
A router is a parameter of everything that follows: of a `Router` nothing is known
but that it asks for a view where it should and nowhere else.

`Router.usual` is a router. It reads methods in capitals, tells a client who asks
for them which methods there are, sends a client that writes several slashes where
one belongs to the path that it means, and has room for files, of which there are
none.
-/

namespace ScriptedMaze.Service

/-- What the service can do. -/
inductive View where
  | difficulties
  | parse
  | start
  | state
  | console
  | reset
  | difficulty
  | run
  | liveStart
  | liveNext
  | liveStop
deriving DecidableEq, Repr

namespace View

/-- The views. -/
def all : List View := [
  difficulties, parse, start, state, console, reset, difficulty, run, liveStart, liveNext, liveStop]

/-- The path at which a view is asked for. -/
def path : View → String
  | difficulties => "/api/difficulties"
  | parse => "/api/parse"
  | start => "/api/session/start"
  | state => "/api/session/state"
  | console => "/api/session/console"
  | reset => "/api/session/reset"
  | difficulty => "/api/session/difficulty"
  | run => "/api/session/run"
  | liveStart => "/api/session/live/start"
  | liveNext => "/api/session/live/next"
  | liveStop => "/api/session/live/stop"

/-- The method by which a view is asked for. -/
def method : View → String
  | difficulties => "GET"
  | state => "GET"
  | console => "GET"
  | _ => "POST"

/-- The view at a path. -/
def at? (path : String) : Option View := all.find? (·.path = path)

theorem at?_path (v : View) : at? v.path = some v := by
  cases v <;> rfl

/-- **Every view has a path of its own.** -/
theorem at?_eq_some_iff {path : String} {v : View} : at? path = some v ↔ v.path = path := by
  refine ⟨fun h => by simpa using List.find?_some h, ?_⟩
  rintro rfl
  exact v.at?_path

end View

/-- What a router makes of a request. -/
inductive Routing where
  /-- The view is asked, and its answer is sent. -/
  | view (v : View)
  /-- The view is asked, and its answer is sent without the body. -/
  | head (v : View)
  /-- No view is asked; the status of what is sent. -/
  | own (status : Nat)
deriving DecidableEq, Repr

/-- **A router.** -/
structure Router where
  /-- What is made of a request, by its method and its path. -/
  route (method path : String) : Routing
  /-- The status of what is sent if a view fails. -/
  failure : Nat
  /-- Every view can be asked for. -/
  serves (v : View) : route v.method v.path = .view v
  /-- At no other path than its own is a view asked for. -/
  path_of_view {method path : String} {v : View} (h : route method path = .view v) : v.path = path
  /-- Neither is one of which nothing but the head is sent. -/
  path_of_head {method path : String} {v : View} (h : route method path = .head v) : v.path = path
  /-- The head by itself can be asked for where something can be got. -/
  method_of_head {method path : String} {v : View} (h : route method path = .head v) :
    v.method = "GET"
  /-- That a view fails is the fault of the service, and the client is told so. -/
  failure_ge : 500 ≤ failure

namespace Router

/-- What is sent where a view has come to an answer, or has failed. -/
def send (ρ : Router) (a : Answer) : Answer :=
  if a.status = Answer.broken.status then .bare ρ.failure else a

/-! ### The usual router -/

/-- A character in capitals, as far as it comes to letters that a method has. The
long s and the dotless i have capitals of ASCII. -/
def capitals (c : Char) : List Char :=
  match c with
  | 'ſ' => ['S']
  | 'ı' => ['I']
  | 'ﬅ' => ['S', 'T']
  | 'ﬆ' => ['S', 'T']
  | c => [c.toUpper]

/-- A method in capitals, however the client writes it. -/
def verb (method : String) : String := String.ofList (method.toList.flatMap capitals)

/-- Whether a method can be used where another one asks for what is done. Where
something can be got its head can be asked for, and every path tells its
methods. -/
def admits (method verb : String) : Bool :=
  verb = method || verb = "OPTIONS" || (verb = "HEAD" && method = "GET")

/-- Whether a path is that of a file which the service would hand out: it goes on
behind `/static/`, and on one line. -/
def isFilePath (path : String) : Bool :=
  let front := "/static/".toList
  let cs := path.toList
  match cs.drop front.length with
  | [] => false
  | c :: r => front.isPrefixOf cs && c ≠ '/' && !r.contains '\n'

/-- The method by which a view or a file is asked for at a path. -/
def methodAt? (path : String) : Option String :=
  match View.at? path with
  | some v => some v.method
  | none => if isFilePath path then some "GET" else none

/-- A path in which slashes in a row have become one. -/
def mergeSlashes : List Char → List Char
  | '/' :: '/' :: r => mergeSlashes ('/' :: r)
  | c :: r => c :: mergeSlashes r
  | [] => []

/-- What is made of a request for which there is no view. -/
def statusWithout (verb path : String) : Nat :=
  match methodAt? path with
  | some method =>
    if !admits method verb then 405 else if verb = "OPTIONS" then 200 else 404
  | none =>
    match methodAt? (String.ofList (mergeSlashes path.toList)) with
    | some method => if admits method verb then 308 else 405
    | none => 404

/-- What is made of a request. A head leaves out the body if the client writes the
method in capitals. -/
def usualRoute (method path : String) : Routing :=
  match View.at? path with
  | some v =>
    if !admits v.method (verb method) then .own 405
    else if verb method = "OPTIONS" then .own 200
    else if method = "HEAD" then .head v
    else .view v
  | none => .own (statusWithout (verb method) path)

/-- The view that the usual router asks is the one at the path, and the method is
admitted there. -/
theorem admits_of_usualRoute {method path : String} {v : View}
    (h : usualRoute method path = .view v ∨ usualRoute method path = .head v) :
    View.at? path = some v ∧ admits v.method (verb method) = true := by
  revert h
  fun_cases usualRoute method path with
  | case1 | case2 | case5 => simp
  | case3 w hw hadmits | case4 w hw hadmits =>
    have hadmits : admits w.method (verb method) = true := by simpa using hadmits
    simp only [reduceCtorEq, false_or, or_false, Routing.head.injEq, Routing.view.injEq]
    rintro rfl
    exact ⟨hw, hadmits⟩

theorem eq_head_of_usualRoute {method path : String} {v : View}
    (h : usualRoute method path = .head v) : method = "HEAD" := by
  revert h
  fun_cases usualRoute method path with
  | case3 w hw _ _ hmethod => exact fun _ => hmethod
  | _ => exact nofun

theorem method_of_usualRoute {method path : String} {v : View}
    (h : usualRoute method path = .head v) : v.method = "GET" := by
  obtain ⟨-, hadmits⟩ := admits_of_usualRoute (.inr h)
  rw [eq_head_of_usualRoute h] at hadmits
  cases v <;> first | rfl | exact absurd hadmits (by decide)

/-- The router that there usually is. -/
def usual : Router where
  route := usualRoute
  failure := 500
  serves v := by cases v <;> decide +kernel
  path_of_view h := View.at?_eq_some_iff.mp (admits_of_usualRoute (.inl h)).1
  path_of_head h := View.at?_eq_some_iff.mp (admits_of_usualRoute (.inr h)).1
  method_of_head := method_of_usualRoute
  failure_ge := Nat.le_refl 500

end Router

end ScriptedMaze.Service
