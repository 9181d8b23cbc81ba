import TransitLink.Probe.Visit

/-!
# The course of a visit

* `Peer` : how each request ends, and what becomes of each file. `Peer.host` : the same, with a log of what happens.
* `Peer.Moves` : only writing changes the place where files are kept.
* `Plan.course` : what happens when all files are written, and how it ends.
* `Peer.run_course` : a plan takes its course up to the first file that is refused.
* `Peer.visit_of_greeted`, `Peer.visit_of_refused` : a visit is the course of its plan between connecting and closing.
-/

namespace TransitLink.Probe

set_option autoImplicit false

/-! ## Logs -/

inductive Happening where
  | dialled
  | asked (action : String) (payload : Json)
  | left (n : Note)
  /-- A file was not written. -/
  | refused (name : String) (content : Content) (t : Trouble)
  | closed

def Happening.request? : Happening → Option (String × Json)
  | asked action payload => some (action, payload)
  | _ => none

def Happening.file? : Happening → Option (String × Content)
  | left (.file name content) => some (name, content)
  | _ => none

def requests (log : List Happening) : List (String × Json) := log.filterMap Happening.request?

def files (log : List Happening) : List (String × Content) := log.filterMap Happening.file?

theorem requests_append (log more : List Happening) : requests (log ++ more) = requests log ++ requests more :=
  List.filterMap_append

theorem requests_note (log : List Happening) (n : Note) : requests (log ++ [.left n]) = requests log := by
  rw [requests_append]
  exact List.append_nil _

theorem files_append (log more : List Happening) : files (log ++ more) = files log ++ files more :=
  List.filterMap_append

/-! ## Peers -/

/-- How each request ends, by number, and what becomes of each file in the place where files are kept. -/
structure Peer (σ : Type) where
  greeting : Except Failure Unit
  answers : Nat → Except Failure Response
  write : String → Content → σ → Except Trouble Unit × σ

structure Record (σ : Type) where
  place : σ
  log : List Happening

namespace Peer
variable {σ : Type}

def ask (peer : Peer σ) (action : String) (payload : Json) : StateM (Record σ) (Except Failure Response) := fun r =>
  (peer.answers (requests r.log).length, { r with log := r.log ++ [.asked action payload] })

def leave (peer : Peer σ) (n : Note) : StateM (Record σ) (Except Trouble Unit) := fun r =>
  match n with
  | .warning text => (.ok (), { r with log := r.log ++ [.left (.warning text)] })
  | .file name content =>
    match peer.write name content r.place with
    | (.ok (), place) => (.ok (), ⟨place, r.log ++ [.left (.file name content)]⟩)
    | (.error t, place) => (.error t, ⟨place, r.log ++ [.refused name content t]⟩)

def host (peer : Peer σ) : Host (StateM (Record σ)) where
  ask := peer.ask
  leave := peer.leave
  connect := fun r => (peer.greeting, { r with log := r.log ++ [.dialled] })
  close := fun r => ((), { r with log := r.log ++ [.closed] })

/-- `peer.Moves s log s'`: what happens in the log leads from the place `s` to `s'`, where only writing changes anything. -/
inductive Moves (peer : Peer σ) : σ → List Happening → σ → Prop where
  | nil (s : σ) : Moves peer s [] s
  | wrote {s t u : σ} {name : String} {content : Content} {log : List Happening} :
      peer.write name content s = (.ok (), t) → Moves peer t log u → Moves peer s (.left (.file name content) :: log) u
  | refused {s t u : σ} {name : String} {content : Content} {why : Trouble} {log : List Happening} :
      peer.write name content s = (.error why, t) → Moves peer t log u →
      Moves peer s (.refused name content why :: log) u
  | warned {s u : σ} {text : String} {log : List Happening} :
      Moves peer s log u → Moves peer s (.left (.warning text) :: log) u
  | asked {s u : σ} {action : String} {payload : Json} {log : List Happening} :
      Moves peer s log u → Moves peer s (.asked action payload :: log) u
  | dialled {s u : σ} {log : List Happening} : Moves peer s log u → Moves peer s (.dialled :: log) u
  | closed {s u : σ} {log : List Happening} : Moves peer s log u → Moves peer s (.closed :: log) u

theorem Moves.append {peer : Peer σ} {s t u : σ} {log more : List Happening} (h : peer.Moves s log t)
    (hmore : peer.Moves t more u) : peer.Moves s (log ++ more) u := by
  induction h with
  | nil s => exact hmore
  | wrote hwrite _ ih => exact .wrote hwrite (ih hmore)
  | refused hwrite _ ih => exact .refused hwrite (ih hmore)
  | warned _ ih => exact .warned (ih hmore)
  | asked _ ih => exact .asked (ih hmore)
  | dialled _ ih => exact .dialled (ih hmore)
  | closed _ ih => exact .closed (ih hmore)

/-- If writing never fails, no file is refused. -/
theorem Moves.forall_written {peer : Peer σ} {s u : σ} {log : List Happening}
    (h : peer.Moves s log u) (hwrite : ∀ name content s, (peer.write name content s).1 = .ok ()) :
    ∀ name content t, .refused name content t ∉ log := by
  intro name content t
  induction h with
  | nil s => exact List.not_mem_nil
  | @refused s _ _ other written why _ hrefused _ _ =>
    have hok := hwrite other written s
    rw [hrefused] at hok
    cases hok
  | wrote _ _ ih | warned _ ih | asked _ ih | dialled _ ih | closed _ ih =>
    rw [List.mem_cons, not_or]
    exact ⟨nofun, ih⟩

end Peer

/-! ## Courses -/

abbrev Course := List Happening × Except Trouble Unit

namespace Plan

theorem append_assoc (p q r : Plan) : p ++ q ++ r = p ++ (q ++ r) := by
  induction p with
  | done => rfl
  | note n rest ih => exact congrArg (note n) ih
  | ask action payload next ih => exact congrArg (ask action payload) (funext ih)

theorem append_done (p : Plan) : p ++ .done = p := by
  induction p with
  | done => rfl
  | note n rest ih => exact congrArg (note n) ih
  | ask action payload next ih => exact congrArg (ask action payload) (funext ih)

variable (answers : Nat → Except Failure Response)

/-- What happens when every file is written, and how it ends; `k` is the number of the next request. -/
def course (k : Nat) : Plan → Course
  | done => ([], .ok ())
  | note n rest => (.left n :: (course k rest).1, (course k rest).2)
  | ask action payload next =>
    match answers k with
    | .ok r => (.asked action payload :: (course (k + 1) (next r)).1, (course (k + 1) (next r)).2)
    | .error e => ([.asked action payload], .error (unanswered action e))

theorem course_notes (ns : List Note) (p : Plan) (k : Nat) :
    (notes ns ++ p).course answers k = (ns.map .left ++ (p.course answers k).1, (p.course answers k).2) := by
  induction ns with
  | nil => rfl
  | cons n ns ih =>
    change (note n (notes ns ++ p)).course answers k = _
    rw [course, ih]
    rfl

end Plan

/-- A course is followed to its end, or up to the first file that is refused. -/
inductive Follows (c : Course) : Course → Prop where
  | whole : Follows c c
  | cut (front : List Happening) {name : String} {content : Content} (t : Trouble) :
      front ++ [.left (.file name content)] <+: c.1 → Follows c (front ++ [.refused name content t], .error t)

theorem Follows.cons {c d : Course} (h : Follows c d) (first : Happening) :
    Follows (first :: c.1, c.2) (first :: d.1, d.2) := by
  cases h with
  | whole => exact .whole
  | cut front t hfront => exact .cut (first :: front) t (List.cons_prefix_cons.mpr ⟨rfl, hfront⟩)

/-- What counts no refusals counts at most what the course has. -/
theorem Follows.filterMap_prefix {α : Type} {f : Happening → Option α}
    (hf : ∀ name content t, f (.refused name content t) = none) {c d : Course} (h : Follows c d) :
    d.1.filterMap f <+: c.1.filterMap f := by
  cases h with
  | whole => exact List.prefix_refl _
  | @cut front name content t hfront =>
    have hprefix := hfront.filterMap f
    rw [List.filterMap_append] at hprefix ⊢
    rw [List.filterMap_cons_none (hf name content t), List.filterMap_nil, List.append_nil]
    exact (List.prefix_append _ _).trans hprefix

theorem Follows.eq_of_written {c d : Course} (h : Follows c d)
    (hwritten : ∀ name content t, .refused name content t ∉ d.1) : d = c := by
  cases h with
  | whole => rfl
  | cut front t hfront => exact absurd (List.mem_append_right _ List.mem_cons_self) (hwritten _ _ t)

theorem Follows.eq_of_ok {c d : Course} (h : Follows c d) (hok : d.2 = .ok ()) : d = c := by
  cases h with
  | whole => rfl
  | cut front t hfront => cases hok

namespace Peer
variable {σ : Type} {peer : Peer σ}

/-- From the record `r`, the course `d` was taken, and it came out so. -/
structure Took (peer : Peer σ) (r : Record σ) (d : Course) (out : Except Trouble Unit × Record σ) : Prop where
  result : out.1 = d.2
  log : out.2.log = r.log ++ d.1
  moves : peer.Moves r.place d.1 out.2.place

theorem Took.cons {r : Record σ} {place : σ} {first : Happening} {d : Course} {out : Except Trouble Unit × Record σ}
    (hfirst : peer.Moves r.place [first] place) (h : peer.Took ⟨place, r.log ++ [first]⟩ d out) :
    peer.Took r (first :: d.1, d.2) out where
  result := h.result
  log := by
    rw [h.log, List.append_assoc]
    rfl
  moves := hfirst.append h.moves

/-! ## Steps -/

theorem run_note {n : Note} {r r' : Record σ} (h : peer.leave n r = (.ok (), r')) (rest : Plan) :
    (Plan.note n rest).run peer.host.toStage r = rest.run peer.host.toStage r' := by
  have hleave : peer.host.leave n r = (.ok (), r') := h
  simp only [Plan.run, bind, StateT.bind, hleave]

theorem run_note_refused {n : Note} {r r' : Record σ} {t : Trouble} (h : peer.leave n r = (.error t, r')) (rest : Plan) :
    (Plan.note n rest).run peer.host.toStage r = (.error t, r') := by
  have hleave : peer.host.leave n r = (.error t, r') := h
  simp only [Plan.run, bind, StateT.bind, hleave]
  rfl

theorem run_ask {r : Record σ} {a : Response} (h : peer.answers (requests r.log).length = .ok a) (action : String)
    (payload : Json) (next : Response → Plan) :
    (Plan.ask action payload next).run peer.host.toStage r =
      (next a).run peer.host.toStage ⟨r.place, r.log ++ [.asked action payload]⟩ := by
  have hask : peer.host.ask action payload r = (.ok a, ⟨r.place, r.log ++ [.asked action payload]⟩) :=
    Prod.ext h rfl
  simp only [Plan.run, bind, StateT.bind, hask]

theorem run_ask_unanswered {r : Record σ} {e : Failure} (h : peer.answers (requests r.log).length = .error e)
    (action : String) (payload : Json) (next : Response → Plan) :
    (Plan.ask action payload next).run peer.host.toStage r =
      (.error (Plan.unanswered action e), ⟨r.place, r.log ++ [.asked action payload]⟩) := by
  have hask : peer.host.ask action payload r = (.error e, ⟨r.place, r.log ++ [.asked action payload]⟩) :=
    Prod.ext h rfl
  simp only [Plan.run, bind, StateT.bind, hask]
  rfl

theorem leave_file {name : String} {content : Content} {r : Record σ} {place : σ}
    (h : peer.write name content r.place = (.ok (), place)) :
    peer.leave (.file name content) r = (.ok (), ⟨place, r.log ++ [.left (.file name content)]⟩) := by
  simp only [leave, h]

theorem leave_file_refused {name : String} {content : Content} {r : Record σ} {place : σ} {t : Trouble}
    (h : peer.write name content r.place = (.error t, place)) :
    peer.leave (.file name content) r = (.error t, ⟨place, r.log ++ [.refused name content t]⟩) := by
  simp only [leave, h]

/-! ## Runs -/

variable (peer)

/-- A plan takes its course up to the first file that is refused. -/
theorem run_course (p : Plan) (r : Record σ) :
    ∃ d, Follows (p.course peer.answers (requests r.log).length) d ∧ peer.Took r d (p.run peer.host.toStage r) := by
  -- over the plan; the number of the next request is always that of the requests in the record
  induction p generalizing r with
  | done => exact ⟨_, .whole, rfl, (List.append_nil _).symm, .nil _⟩
  | note n rest ih =>
    cases n with
    | warning text =>
      obtain ⟨d, hd, htook⟩ := ih ⟨r.place, r.log ++ [.left (.warning text)]⟩
      rw [requests_note] at hd
      exact ⟨_, hd.cons _, htook.cons (.warned (.nil _))⟩
    | file name content =>
      rcases hwrite : peer.write name content r.place with ⟨t | ⟨⟨⟩⟩, place⟩
      · rw [run_note_refused (leave_file_refused hwrite)]
        exact ⟨_, .cut [] t (List.cons_prefix_cons.mpr ⟨rfl, List.nil_prefix⟩), rfl, rfl, .refused hwrite (.nil _)⟩
      · obtain ⟨d, hd, htook⟩ := ih ⟨place, r.log ++ [.left (.file name content)]⟩
        rw [requests_note] at hd
        rw [run_note (leave_file hwrite)]
        exact ⟨_, hd.cons _, htook.cons (.wrote hwrite (.nil _))⟩
  | ask action payload next ih =>
    rw [Plan.course]
    cases hanswer : peer.answers (requests r.log).length with
    | error e =>
      rw [run_ask_unanswered hanswer]
      exact ⟨_, .whole, rfl, rfl, .asked (.nil _)⟩
    | ok a =>
      obtain ⟨d, hd, htook⟩ := ih a ⟨r.place, r.log ++ [.asked action payload]⟩
      rw [requests_append, List.length_append] at hd
      rw [run_ask hanswer]
      exact ⟨_, hd.cons _, htook.cons (.asked (.nil _))⟩

/-- Nobody is asked who has not been connected to. The connection is closed all the same. -/
theorem visit_of_refused {e : Failure} (h : peer.greeting = .error e) (p : Plan) (place : σ) :
    visit peer.host p ⟨place, []⟩ = (.error (.ofFailure e), ⟨place, [.dialled, .closed]⟩) := by
  have hconnect : peer.host.connect ⟨place, []⟩ = (.error e, ⟨place, [.dialled]⟩) := Prod.ext h rfl
  simp only [visit, bind, StateT.bind, hconnect]
  rfl

/-- Between connecting and closing, a plan takes its course. -/
theorem visit_of_greeted (h : peer.greeting = .ok ()) (p : Plan) (place : σ) : ∃ d,
    Follows (p.course peer.answers 0) d ∧
      peer.Took ⟨place, []⟩ (.dialled :: (d.1 ++ [.closed]), d.2) (visit peer.host p ⟨place, []⟩) := by
  have hconnect : peer.host.connect ⟨place, []⟩ = (.ok (), ⟨place, [.dialled]⟩) := Prod.ext h rfl
  obtain ⟨d, hd, hresult, hlog, hmoves⟩ := peer.run_course p ⟨place, [.dialled]⟩
  have hvisit : visit peer.host p ⟨place, []⟩ =
      ((p.run peer.host.toStage ⟨place, [.dialled]⟩).1, ⟨(p.run peer.host.toStage ⟨place, [.dialled]⟩).2.place,
        (p.run peer.host.toStage ⟨place, [.dialled]⟩).2.log ++ [.closed]⟩) := by
    simp only [visit, bind, StateT.bind, hconnect]
    rfl
  refine ⟨d, hd, ?_⟩
  rw [hvisit]
  exact ⟨hresult, by rw [hlog]; rfl, .dialled (hmoves.append (.closed (.nil _)))⟩

end Peer
end TransitLink.Probe
