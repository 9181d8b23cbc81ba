import Mathlib.Data.List.Induction
import TransitLink.Proofs.Link.Turn

/-!
# The life of a connection

* `Connection.life` : a connection that is opened and then deals with some events, and everything it does.
* `life_snoc` : one more event is one more step. `life_sound` : the connection is sound all along.
* `opened_of_sent`, `opened_of_fault` : what opening comes to.
* `along` : what is found along a run. `Supplied` : ids are drawn as long as they are needed.
* `twoRequests` : a short life to try things on.

Claims about lives are proved by induction on the events from the last one, with `turn_step` for the step.
-/

namespace TransitLink.Connection

set_option autoImplicit false

/-- A connection with its effects so far, after it has dealt with some more events. -/
def onward (x : Connection × List Effect) (es : List (Circumstances × Event)) : Connection × List Effect :=
  ((x.1.run es).1, x.2 ++ (x.1.run es).2)

/-- A connection that is opened and then deals with some events, each with its circumstances; and all its effects. -/
def life (config : Config) (w₀ : Circumstances) (es : List (Circumstances × Event)) : Connection × List Effect :=
  onward (Connection.open config w₀) es

/-! ## Opening -/

def greeting (config : Config) (w : Circumstances) : Envelope :=
  .greeting w.wallClock (.make config.clientId config.token)

theorem opened_of_sent {config : Config} {w : Circumstances} (h : (send w (greeting config w)).2 = none) :
    (Connection.open config w).1.Waiting ∧ news (Connection.open config w).2 = [.send (greeting config w) none] := by
  have hsent := news_send_fst w (greeting config w)
  unfold «open»
  rw [show Envelope.greeting w.wallClock (Greeting.make config.clientId config.token) = greeting config w from rfl]
  cases hs : send w (greeting config w) with
  | mk sent fault =>
    rw [hs] at hsent h
    cases h
    exact ⟨⟨rfl, rfl, rfl, rfl, rfl, rfl⟩, hsent⟩

theorem opened_of_fault {config : Config} {w : Circumstances} {why : Failure}
    (h : (send w (greeting config w)).2 = some why) :
    (Connection.open config w).1.Over ∧ (Connection.open config w).1.published = .failed ∧
      news (Connection.open config w).2 =
        [.send (greeting config w) (some why), .connected (.error (.closedBeforeHandshake why.message))] := by
  have hsent := news_send_fst w (greeting config w)
  unfold «open»
  rw [show Envelope.greeting w.wallClock (Greeting.make config.clientId config.token) = greeting config w from rfl]
  cases hs : send w (greeting config w) with
  | mk sent fault =>
    rw [hs] at hsent h
    cases h
    obtain ⟨hc, hn⟩ := lose_open
      (c := { config := config, handshakeDeadline := deadlineAfter w.now config.handshakeTimeout }) rfl rfl rfl
      why.message
    simp only [hc, news_append, hsent, news_error, hn]
    exact ⟨over_finish _ (.inl rfl), rfl, rfl⟩

theorem open_sound (config : Config) (w : Circumstances) : (Connection.open config w).1.Sound := by
  cases h : (send w (greeting config w)).2 with
  | none => exact .waiting (opened_of_sent h).1
  | some why => exact .ended (opened_of_fault h).1

theorem open_pending (config : Config) (w : Circumstances) : (Connection.open config w).1.pending = [] := by
  cases h : (send w (greeting config w)).2 with
  | none => exact (opened_of_sent h).1.pending
  | some why => exact (opened_of_fault h).1.pending

theorem open_config (config : Config) (w : Circumstances) : (Connection.open config w).1.config = config := by
  unfold «open»
  simp only
  split <;> rfl

/-! ## Runs -/

theorem run_cons (c : Connection) (w : Circumstances) (e : Event) (es : List (Circumstances × Event)) :
    c.run ((w, e) :: es) = (((c.step w e).1.run es).1, (c.step w e).2 ++ ((c.step w e).1.run es).2) := rfl

theorem run_singleton (c : Connection) (w : Circumstances) (e : Event) : c.run [(w, e)] = c.step w e := by
  rw [run_cons]
  exact Prod.ext rfl (List.append_nil _)

theorem run_append (c : Connection) (es fs : List (Circumstances × Event)) :
    c.run (es ++ fs) = (((c.run es).1.run fs).1, (c.run es).2 ++ ((c.run es).1.run fs).2) := by
  induction es generalizing c with
  | nil => rfl
  | cons x es ih =>
    obtain ⟨w, e⟩ := x
    rw [List.cons_append, run_cons, ih, run_cons, List.append_assoc]

theorem run_sound {c : Connection} (h : c.Sound) (es : List (Circumstances × Event)) : (c.run es).1.Sound := by
  induction es generalizing c with
  | nil => exact h
  | cons x es ih => exact ih (turn_step h x.1 x.2).sound

/-- What is found along a run, step after step. -/
def along {α : Type} (f : Connection → Circumstances → Event → List α) (c : Connection) :
    List (Circumstances × Event) → List α
  | [] => []
  | (w, e) :: es => f c w e ++ along f (c.step w e).1 es

theorem along_snoc {α : Type} (f : Connection → Circumstances → Event → List α) (c : Connection)
    (es : List (Circumstances × Event)) (w : Circumstances) (e : Event) :
    along f c (es ++ [(w, e)]) = along f c es ++ f (c.run es).1 w e := by
  induction es generalizing c with
  | nil => exact List.append_nil _
  | cons x es ih =>
    obtain ⟨w', e'⟩ := x
    rw [List.cons_append, along, ih, along, run_cons, List.append_assoc]

/-- Whenever an event is dealt with, some id is drawn that is free. -/
def Supplied (c : Connection) (es : List (Circumstances × Event)) : Prop :=
  ∀ before w e after, es = before ++ (w, e) :: after → ∃ id ∈ w.draws, id ∉ (c.run before).1.pending.ids

theorem Supplied.before {c : Connection} {es : List (Circumstances × Event)} {x : Circumstances × Event}
    (h : c.Supplied (es ++ [x])) : c.Supplied es := by
  intro before w e after hes
  refine h before w e (after ++ [x]) ?_
  rw [hes, List.append_assoc, List.cons_append]

theorem onward_fst (x : Connection × List Effect) (es : List (Circumstances × Event)) :
    (onward x es).1 = (x.1.run es).1 := rfl

theorem onward_nil (x : Connection × List Effect) : onward x [] = x := Prod.ext rfl (List.append_nil _)

theorem onward_snoc (x : Connection × List Effect) (es : List (Circumstances × Event)) (w : Circumstances) (e : Event) :
    onward x (es ++ [(w, e)]) = (((onward x es).1.step w e).1, (onward x es).2 ++ ((onward x es).1.step w e).2) := by
  rw [onward, run_append, run_singleton, ← List.append_assoc]
  rfl

/-! ## Lives -/

variable (config : Config) (w₀ : Circumstances) (es : List (Circumstances × Event)) (w : Circumstances) (e : Event)

theorem life_nil : life config w₀ [] = Connection.open config w₀ := onward_nil _

theorem life_snoc_fst : (life config w₀ (es ++ [(w, e)])).1 = ((life config w₀ es).1.step w e).1 := by
  rw [life, onward_snoc, life]

theorem life_snoc_snd :
    (life config w₀ (es ++ [(w, e)])).2 = (life config w₀ es).2 ++ ((life config w₀ es).1.step w e).2 := by
  rw [life, onward_snoc, life]

theorem along_life_snoc {α : Type} (f : Connection → Circumstances → Event → List α) :
    along f (Connection.open config w₀).1 (es ++ [(w, e)]) =
      along f (Connection.open config w₀).1 es ++ f (life config w₀ es).1 w e := by
  rw [along_snoc, life, onward_fst]

theorem life_sound : (life config w₀ es).1.Sound := by
  rw [life, onward_fst]
  exact run_sound (open_sound config w₀) es

theorem life_turn :
    Turn (life config w₀ es).1 w e (life config w₀ (es ++ [(w, e)])).1 (news ((life config w₀ es).1.step w e).2) := by
  rw [life_snoc_fst]
  exact turn_step (life_sound config w₀ es) w e

theorem life_config : (life config w₀ es).1.config = config := by
  induction es using List.reverseRecOn with
  | nil => rw [life_nil, open_config]
  | append_singleton es x ih => rw [(life_turn config w₀ es x.1 x.2).config_eq, ih]

/-! ## An example -/

def atMilliseconds (n : Nat) : Circumstances :=
  { now := n * 1000000, draws := ["000000000000", "000000000001"] }

/-- The server accepts the handshake at once. A request that may take 50 ms is made, and 10 ms later one that may take
30 ms. -/
def twoRequests : List (Circumstances × Event) :=
  [(atMilliseconds 0, .frame (Bytes.ofText
      "\x7b\"type\":\"handshake_ack\",\"body\":\x7b\"connectionId\":\"c\"\x7d\x7d")),
    (atMilliseconds 0, .request 0 "open" .null (.ofMilliseconds 50)),
    (atMilliseconds 10, .request 1 "shut" .null (.ofMilliseconds 30))]

end TransitLink.Connection
