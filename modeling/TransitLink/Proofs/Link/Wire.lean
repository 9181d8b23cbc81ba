import Mathlib.Data.List.Forall2
import TransitLink.Proofs.Json.Printing
import TransitLink.Proofs.Link.Verdict

/-!
# What is sent

* `Reads` : what the text of an envelope says. `Asks` : it is a request. `Under` : it goes under the id of a connection.
* `Order`, `ordered` : the requests that an established connection takes. `Carries` : the envelope of one.
* `Sent` : what one event sends: nothing, a request, or a sign of life.
* `Turn.sent` : every turn sends so. `life_sent`, `life_orders` : what is sent over whole lives.
* `wire_discipline` : the greeting goes first and once; all else goes under the id of the connection that was accepted.
-/

namespace TransitLink.Connection

set_option autoImplicit false

/-! ## Texts of envelopes -/

/-- The text of an envelope is an object with its type, its time, the id of the connection and this body. -/
def Reads (x : Envelope) (type : String) (time : Int) (connectionId : String) (body : Members Json) : Prop :=
  Json.Writes x.toBytes (.obj [("type", .str type), ("timestamp", .int time), ("connectionId", .str connectionId),
    ("body", .obj body)])

/-- An envelope asks for an action, and says so in its text. -/
def Asks (x : Envelope) (time : Int) (connectionId id action : String) (payload : Json) : Prop :=
  x.kind = .request ∧ Reads x "request" time connectionId
    [("protocolVersion", .int 1), ("requestId", .str id), ("action", .str action), ("payload", payload)]

/-- An envelope is a request or a sign of life under the id of a connection. -/
def Under (x : Envelope) (connectionId : String) : Prop :=
  (∃ time id action payload, Asks x time connectionId id action payload) ∨
    x.kind = .ping ∧ ∃ time, Reads x "ping" time connectionId []

/-- An envelope opens a connection: it says who speaks, and has no id of a connection. -/
def Greets (x : Envelope) (config : Config) (time : Int) : Prop :=
  x.kind = .handshake ∧ Json.Writes x.toBytes (.obj [("type", .str "handshake"), ("timestamp", .int time),
    ("body", .obj [("protocolVersion", .int 1), ("clientId", .str config.clientId), ("token", .str config.token),
      ("capabilities", .arr [.str "actions"])])])

theorem greets_greeting (config : Config) (w : Circumstances) : Greets (greeting config w) config w.wallClock :=
  ⟨rfl, Json.writes_toBytes (greeting config w).toJson⟩

theorem asks_call (w : Circumstances) (a : Acknowledgement) (id action : String) (payload : Json) :
    Asks (callEnvelope w a id action payload) w.wallClock a.connectionId id action payload :=
  ⟨rfl, Json.writes_toBytes (callEnvelope w a id action payload).toJson⟩

theorem under_call (w : Circumstances) (a : Acknowledgement) (id action : String) (payload : Json) :
    Under (callEnvelope w a id action payload) a.connectionId :=
  .inl ⟨_, _, _, _, asks_call w a id action payload⟩

theorem under_ping (time : Int) (connectionId : String) : Under (.ping time connectionId) connectionId :=
  .inr ⟨rfl, time, Json.writes_toBytes (Envelope.ping time connectionId).toJson⟩

/-! ## Requests and their envelopes -/

structure Order where
  circumstances : Circumstances
  action : String
  payload : Json

def ordered (c : Connection) (w : Circumstances) : Event → List Order
  | .request _ action payload _ => if c.published = .established then [⟨w, action, payload⟩] else []
  | _ => []

/-- The ids that are drawn come from random words. -/
def Generated (w : Circumstances) : Prop := ∀ id ∈ w.draws, ∃ ws rest, RequestId.ofWords ws = some (id, rest)

/-- The envelope of a request: it has the request's own action and payload, and an id that was drawn. -/
def Carries (connectionId : String) (o : Order) (x : Envelope) : Prop :=
  ∃ id ∈ o.circumstances.draws, (Generated o.circumstances → RequestId.Regular id ∧ RequestId.isValid id = true) ∧
    Asks x o.circumstances.wallClock connectionId id o.action o.payload

def calls (xs : List Envelope) : List Envelope := xs.filter fun x => x.kind = .request

theorem calls_append (xs ys : List Envelope) : calls (xs ++ ys) = calls xs ++ calls ys := List.filter_append ..

theorem ordered_of_ne {c : Connection} (h : c.published ≠ .established) (w : Circumstances) (e : Event) :
    c.ordered w e = [] := by
  cases e with
  | request => exact if_neg h
  | _ => rfl

theorem ordered_of_caller {e : Event} (h : e.caller? = none) (c : Connection) (w : Circumstances) :
    c.ordered w e = [] := by
  cases e with
  | request => cases h
  | _ => rfl

theorem carries_of_pick {c : Connection} {w : Circumstances} {id : String}
    (h : RequestId.pick? c.pending.ids w.draws = some id) (a : Acknowledgement) (action : String) (payload : Json) :
    Carries a.connectionId ⟨w, action, payload⟩ (callEnvelope w a id action payload) := by
  have hdrawn := (RequestId.pick?_eq_some h).1
  refine ⟨id, hdrawn, ?_, asks_call w a id action payload⟩
  intro hgenerated
  obtain ⟨ws, rest, hid⟩ := hgenerated id hdrawn
  exact ⟨RequestId.regular_of_ofWords hid, RequestId.isValid_of_ofWords hid⟩

/-! ## Turns -/

/-- What an event sends: nothing, a request, or a sign of life that a caller or the clock wants. Whatever is sent comes
first among the news, and is all that is sent. -/
inductive Sent (c : Connection) (w : Circumstances) : Event → List Effect → Prop where
  | silent {e : Event} {es : List Effect} : (c.ordered w e ≠ [] → RequestId.pick? c.pending.ids w.draws = none) →
      envelopes es = [] → Sent c w e es
  | call {a : Acknowledgement} {caller : Nat} {action : String} {payload : Json} {timeout : Duration} {id : String}
      {f : Option Failure} {rest : List Effect} : c.Established a →
      RequestId.pick? c.pending.ids w.draws = some id → envelopes rest = [] →
      Sent c w (.request caller action payload timeout) (.send (callEnvelope w a id action payload) f :: rest)
  | ping {a : Acknowledgement} {caller : Nat} {f : Option Failure} {rest : List Effect} : c.Established a →
      envelopes rest = [] → Sent c w (.ping caller) (.send (.ping w.wallClock a.connectionId) f :: rest)
  | beat {a : Acknowledgement} {f : Option Failure} {rest : List Effect} : c.Established a → c.keepalive ≠ none →
      envelopes rest = [] → Sent c w .pingDue (.send (.ping w.wallClock a.connectionId) f :: rest)

theorem envelopes_closings (t : PendingTable) : envelopes (closings t) = [] := filterMap_settles (fun _ => rfl) _ t

theorem envelopes_farewell (t : PendingTable) (e : Event) : envelopes (farewell t e) = [] :=
  filterMap_farewell (fun _ => rfl) rfl rfl t e

/-- An event of an unestablished connection, or one that is no request, may send nothing. -/
theorem Sent.nothing {c : Connection} {w : Circumstances} {e : Event} {es : List Effect}
    (h : c.published ≠ .established ∨ e.caller? = none) (hes : envelopes es = []) : Sent c w e es := by
  refine .silent ?_ hes
  intro hordered
  rcases h with h | h
  · exact absurd (ordered_of_ne h w e) hordered
  · exact absurd (ordered_of_caller h c w) hordered

/-- **Every turn sends a request, a sign of life, or nothing.** -/
theorem Turn.sent {c c' : Connection} {w : Circumstances} {e : Event} {es : List Effect} (h : Turn c w e c' es) :
    Sent c w e es := by
  cases h with
  | refused h =>
    refine .nothing (.inl h.unestablished) ?_
    cases e <;> rfl
  | unready h => exact .nothing (.inl h.unestablished) rfl
  | unreadyPing => exact .nothing (.inr rfl) rfl
  | kept h => exact .nothing (.inl h.unestablished) rfl
  | accepted => exact .nothing (.inr rfl) rfl
  | failed h => exact .nothing (.inl h.unestablished) (envelopes_farewell [] e)
  | abandoned => exact .nothing (.inr rfl) rfl
  | stranded _ hp => exact .silent (fun _ => hp) rfl
  | called h hp => exact .call h hp rfl
  | uncalled h hp => exact .call h hp (envelopes_closings _)
  | pinged h => exact .ping h rfl
  | unpinged h => exact .ping h (envelopes_closings _)
  | beat h hk => exact .beat h (by rw [hk]; exact Option.some_ne_none _) rfl
  | unbeat h hk => exact .beat h (by rw [hk]; exact Option.some_ne_none _) (envelopes_closings _)
  | answered => exact .nothing (.inr rfl) rfl
  | expired => exact .nothing (.inr rfl) (filterMap_settles (fun _ => rfl) _ _)
  | parted _ he => exact .nothing (.inr (Event.caller?_of_isParting he)) (envelopes_farewell _ e)
  | unmoved _ hi => exact .nothing (.inr hi.caller?) rfl

/-- Whatever is sent is sent first, by an established connection, under its id. -/
theorem Sent.first {c : Connection} {w : Circumstances} {e : Event} {es : List Effect} (h : Sent c w e es) {x : Envelope}
    (hx : x ∈ envelopes es) :
    ∃ a f rest, c.Established a ∧ Under x a.connectionId ∧ es = .send x f :: rest ∧ envelopes rest = [] := by
  have hone : ∀ {y : Envelope} {f : Option Failure} {rest : List Effect}, envelopes rest = [] →
      x ∈ envelopes (.send y f :: rest) → x = y := by
    intro y f rest hrest hmem
    have hcons : envelopes (.send y f :: rest) = y :: envelopes rest := rfl
    rw [hcons, hrest] at hmem
    exact List.mem_singleton.mp hmem
  cases h with
  | silent _ hnone =>
    rw [hnone] at hx
    cases hx
  | call ha _ hrest =>
    cases hone hrest hx
    exact ⟨_, _, _, ha, under_call .., rfl, hrest⟩
  | ping ha hrest =>
    cases hone hrest hx
    exact ⟨_, _, _, ha, under_ping .., rfl, hrest⟩
  | beat ha _ hrest =>
    cases hone hrest hx
    exact ⟨_, _, _, ha, under_ping .., rfl, hrest⟩

/-- A request that an established connection takes is sent once, under an id that was drawn and is free. -/
theorem Sent.request {c : Connection} {w : Circumstances} {caller : Nat} {action : String} {payload : Json}
    {timeout : Duration} {es : List Effect} (h : Sent c w (.request caller action payload timeout) es)
    (hp : c.published = .established) (hfree : ∃ id ∈ w.draws, id ∉ c.pending.ids) :
    ∃ id ∈ w.draws, id ∉ c.pending.ids ∧ ∃ a x, c.Established a ∧ envelopes es = [x] ∧
      Asks x w.wallClock a.connectionId id action payload := by
  cases h with
  | silent hnone =>
    have hordered : c.ordered w (.request caller action payload timeout) = [⟨w, action, payload⟩] := if_pos hp
    have hstuck := hnone (by rw [hordered]; exact List.cons_ne_nil _ _)
    obtain ⟨id, hid, hnew⟩ := hfree
    exact absurd (RequestId.pick?_eq_none hstuck id hid) hnew
  | @call a _ _ _ _ id f rest ha hid hrest =>
    obtain ⟨hdrawn, hnew⟩ := RequestId.pick?_eq_some hid
    refine ⟨id, hdrawn, hnew, a, callEnvelope w a id action payload, ha, ?_, asks_call w a id action payload⟩
    have hcons : envelopes (.send (callEnvelope w a id action payload) f :: rest) =
        callEnvelope w a id action payload :: envelopes rest := rfl
    rw [hcons, hrest]

/-- The clock makes an established connection send only if it wants signs of life. -/
theorem Sent.pingDue {c : Connection} {w : Circumstances} {es : List Effect} (h : Sent c w .pingDue es)
    (hes : envelopes es ≠ []) : ∃ a, c.Established a ∧ c.keepalive ≠ none := by
  cases h with
  | silent _ hnone => exact absurd hnone hes
  | beat ha hk => exact ⟨_, ha, hk⟩

/-- **What an event orders is what it sends.** -/
theorem Sent.orders {c : Connection} {w : Circumstances} {e : Event} {es : List Effect} (h : Sent c w e es)
    (hfree : ∃ id ∈ w.draws, id ∉ c.pending.ids) :
    List.Forall₂ (fun o x => ∃ a, c.Established a ∧ Carries a.connectionId o x) (c.ordered w e)
      (calls (envelopes es)) := by
  cases h with
  | silent hnone hes =>
    have hordered : c.ordered w e = [] := by
      by_contra hsome
      obtain ⟨id, hid, hnew⟩ := hfree
      exact hnew (RequestId.pick?_eq_none (hnone hsome) id hid)
    rw [hordered, hes]
    exact .nil
  | @call a caller action payload timeout id f rest ha hp hrest =>
    have hordered : c.ordered w (.request caller action payload timeout) = [⟨w, action, payload⟩] := if_pos ha.published
    have hcalls : calls (envelopes (.send (callEnvelope w a id action payload) f :: rest)) =
        callEnvelope w a id action payload :: calls (envelopes rest) := rfl
    rw [hordered, hcalls, hrest]
    exact .cons ⟨a, ha, carries_of_pick hp a action payload⟩ .nil
  | @ping a caller f rest ha hrest =>
    have hcalls : calls (envelopes (.send (.ping w.wallClock a.connectionId) f :: rest)) = calls (envelopes rest) := rfl
    rw [hcalls, hrest]
    exact .nil
  | @beat a f rest ha hk hrest =>
    have hcalls : calls (envelopes (.send (.ping w.wallClock a.connectionId) f :: rest)) = calls (envelopes rest) := rfl
    rw [hcalls, hrest]
    exact .nil

/-! ## Whole lives -/

section Lives

variable {config : Config} {w₀ : Circumstances} {es : List (Circumstances × Event)}

/-- A life that is established was accepted first of all. -/
theorem life_established {a : Acknowledgement} (ha : (life config w₀ es).1.Established a) :
    decided? config w₀ es = some (.accept a) := by
  have hstanding := (life_standing config w₀ es).1
  generalize decided? config w₀ es = d at hstanding
  cases hstanding with
  | undecided hw => exact absurd ha hw.not_established
  | failed ho => exact absurd ha ho.not_established
  | accepted hb =>
    have hsame := hb.handshake.symm.trans ha.handshake
    cases hsame
    rfl
  | left ho => exact absurd ha ho.not_established
  | abandoned ho => exact absurd ha ho.not_established

theorem decided?_stays {d : Decision} (h : decided? config w₀ es = some d) (w : Circumstances) (e : Event) :
    decided? config w₀ (es ++ [(w, e)]) = some d :=
  decided?_append h [(w, e)]

theorem life_step_sent (config : Config) (w₀ : Circumstances) (es : List (Circumstances × Event)) (w : Circumstances)
    (e : Event) : Sent (life config w₀ es).1 w e (news ((life config w₀ es).1.step w e).2) :=
  (life_turn config w₀ es w e).sent

theorem open_envelopes (config : Config) (w : Circumstances) :
    envelopes (Connection.open config w).2 = [greeting config w] := by
  rw [← envelopes_news]
  cases h : (send w (greeting config w)).2 with
  | none =>
    rw [(opened_of_sent h).2]
    rfl
  | some why =>
    rw [(opened_of_fault h).2.2]
    rfl

/-- **After the greeting everything goes under the id of the connection that was accepted.** -/
theorem life_sent (config : Config) (w₀ : Circumstances) (es : List (Circumstances × Event)) :
    ∃ rest, envelopes (life config w₀ es).2 = greeting config w₀ :: rest ∧
      ∀ x ∈ rest, ∃ a, decided? config w₀ es = some (.accept a) ∧ Under x a.connectionId := by
  induction es using List.reverseRecOn with
  | nil =>
    rw [life_nil, open_envelopes]
    exact ⟨[], rfl, fun x hx => absurd hx List.not_mem_nil⟩
  | append_singleton es y ih =>
    obtain ⟨w, e⟩ := y
    obtain ⟨rest, hrest, hall⟩ := ih
    refine ⟨rest ++ envelopes ((life config w₀ es).1.step w e).2, ?_, ?_⟩
    · rw [life_snoc_snd, envelopes_append, hrest, List.cons_append]
    · intro x hx
      rcases List.mem_append.mp hx with hold | hnew
      · obtain ⟨a, hdecided, hunder⟩ := hall x hold
        exact ⟨a, decided?_stays hdecided w e, hunder⟩
      · rw [← envelopes_news] at hnew
        obtain ⟨a, _, _, ha, hunder, _⟩ := (life_step_sent config w₀ es w e).first hnew
        exact ⟨a, decided?_stays (life_established ha) w e, hunder⟩

/-- **The requests that are sent are the requests that were taken, in order.** -/
theorem life_orders (h : (Connection.open config w₀).1.Supplied es) :
    List.Forall₂ (fun o x => ∃ a, decided? config w₀ es = some (.accept a) ∧ Carries a.connectionId o x)
      (along ordered (Connection.open config w₀).1 es) (calls (envelopes (life config w₀ es).2)) := by
  induction es using List.reverseRecOn with
  | nil =>
    rw [life_nil, open_envelopes]
    exact .nil
  | append_singleton es y ih =>
    obtain ⟨w, e⟩ := y
    have hfree := h es w e [] rfl
    have hlast := (life_step_sent config w₀ es w e).orders hfree
    rw [envelopes_news] at hlast
    rw [along_life_snoc, life_snoc_snd, envelopes_append, calls_append]
    refine List.rel_append (R := fun o x => ∃ a, decided? config w₀ (es ++ [(w, e)]) = some (.accept a) ∧
      Carries a.connectionId o x) ?_ ?_
    · apply (ih h.before).imp
      rintro o x ⟨a, hdecided, hcarries⟩
      exact ⟨a, decided?_stays hdecided w e, hcarries⟩
    · apply hlast.imp
      rintro o x ⟨a, ha, hcarries⟩
      exact ⟨a, decided?_stays (life_established ha) w e, hcarries⟩

end Lives

/-- **Only what was agreed on is sent.** Whatever happens to a connection, in whatever order: the greeting goes first, says
who speaks, has no id of a connection, and goes once; everything else is a request or a sign of life, goes while the
connection is established, and carries the id of the connection that was accepted first. Every request that an established
connection takes is sent once, in order, with its own action and payload in its text, and under a regular id that no other
request in flight has. The clock sends signs of life only if both sides want them, at most a day apart. -/
theorem wire_discipline (config : Config) (w₀ : Circumstances) (es : List (Circumstances × Event)) :
    (∃ first rest, envelopes (life config w₀ es).2 = first :: rest ∧ Greets first config w₀.wallClock ∧
      ∀ x ∈ rest, ∃ a, decided? config w₀ es = some (.accept a) ∧ Under x a.connectionId) ∧
    (∀ w e x, x ∈ envelopes ((life config w₀ es).1.step w e).2 →
      ∃ a f rest, (life config w₀ es).1.published = .established ∧ decided? config w₀ es = some (.accept a) ∧
        Under x a.connectionId ∧ news ((life config w₀ es).1.step w e).2 = .send x f :: rest ∧ envelopes rest = []) ∧
    (∀ (w : Circumstances) caller action payload timeout, (life config w₀ es).1.published = .established →
      (∃ id ∈ w.draws, id ∉ (life config w₀ es).1.pending.ids) →
      ∃ id ∈ w.draws, id ∉ (life config w₀ es).1.pending.ids ∧ ∃ a x, decided? config w₀ es = some (.accept a) ∧
        envelopes ((life config w₀ es).1.step w (.request caller action payload timeout)).2 = [x] ∧
        Asks x w.wallClock a.connectionId id action payload) ∧
    ((Connection.open config w₀).1.Supplied es →
      List.Forall₂ (fun o x => ∃ a, decided? config w₀ es = some (.accept a) ∧ Carries a.connectionId o x)
        (along ordered (Connection.open config w₀).1 es) (calls (envelopes (life config w₀ es).2))) ∧
    (life config w₀ es).1.pending.ids.Nodup ∧
    (∀ w, envelopes ((life config w₀ es).1.step w .pingDue).2 ≠ [] → config.keepalive = true ∧
      ∃ a s, decided? config w₀ es = some (.accept a) ∧ a.heartbeatSeconds = some s ∧ 1 ≤ s ∧ s ≤ 86400) := by
  refine ⟨?_, ?_, ?_, life_orders, (life_sound config w₀ es).distinct, ?_⟩
  · obtain ⟨rest, hrest, hall⟩ := life_sent config w₀ es
    exact ⟨greeting config w₀, rest, hrest, greets_greeting config w₀, hall⟩
  · intro w e x hx
    rw [← envelopes_news] at hx
    obtain ⟨a, f, rest, ha, hunder, hfirst, hrest⟩ := (life_step_sent config w₀ es w e).first hx
    exact ⟨a, f, rest, ha.published, life_established ha, hunder, hfirst, hrest⟩
  · intro w caller action payload timeout hp hfree
    obtain ⟨id, hdrawn, hnew, a, x, ha, hsent, hasks⟩ :=
      (life_step_sent config w₀ es w (.request caller action payload timeout)).request hp hfree
    rw [envelopes_news] at hsent
    exact ⟨id, hdrawn, hnew, a, x, life_established ha, hsent, hasks⟩
  · intro w hes
    rw [← envelopes_news] at hes
    obtain ⟨a, ha, hk⟩ := (life_step_sent config w₀ es w .pingDue).pingDue hes
    obtain ⟨hwanted, s, hs, hlow, hhigh⟩ := ha.granted hk
    rw [life_config] at hwanted
    exact ⟨hwanted, a, s, life_established ha, hs, hlow, hhigh⟩

end TransitLink.Connection
