import TransitLink.Proofs.Link.Stage
import TransitLink.Proofs.RequestId

/-!
# What one event does to a connection

* `Event.decision?` : what an event decides about a handshake that is still open.
* `Connection.Turn` : everything that one event can do to a connection, with the news of it.
* `turn_step` : every step of a sound connection is such a turn. `Turn.sound` : the connection stays sound. All that is
  proved about runs of a connection goes through these two.
-/

namespace TransitLink

set_option autoImplicit false

/-! ## What an event decides about an open handshake -/

inductive Decision where
  /-- It fails, and the connection ends in this phase. -/
  | fail (why : Failure) (phase : Phase)
  /-- The server accepts it. -/
  | accept (a : Acknowledgement)
  /-- Nobody is left who could be told. -/
  | abandon

namespace Decision

/-- What the caller that opened the connection is told. -/
def result? : Decision → Option (Except Failure Acknowledgement)
  | fail why _ => some (.error why)
  | accept a => some (.ok a)
  | abandon => none

def phase : Decision → Phase
  | fail _ p => p
  | accept _ => .established
  | abandon => .closed

end Decision

namespace Event

/-- What an event decides about the open handshake of a connection with this configuration, if anything. -/
def decision? (config : Config) : Event → Option Decision
  | .ended => some (.fail (.closedBeforeHandshake "connection closed by server") .failed)
  | .readFailed why => some (.fail (.closedBeforeHandshake why.message) .failed)
  | .handshakeDue => some (.fail (.handshakeTimeout config.handshakeTimeout) .failed)
  | .close => some (.fail (.closedBeforeHandshake "closed by client") .closed)
  | .orphaned => some .abandon
  | .frame body =>
    match Inbound.decode body with
    | .ok (.acknowledgement a) => some (.accept a)
    | .ok (.refusal r) => some (.fail (.handshakeRejected r.code r.text) .failed)
    | _ => none
  | .request _ _ _ _ => none
  | .ping _ => none
  | .requestDue => none
  | .pingDue => none

def caller? : Event → Option Nat
  | .request caller _ _ _ => some caller
  | _ => none

theorem phase_of_decision {config : Config} {e : Event} {why : Failure} {p : Phase}
    (h : e.decision? config = some (.fail why p)) : p = .failed ∨ p = .closed := by
  cases e with
  | frame body =>
    simp only [decision?] at h
    split at h
    · cases h
    · cases h; exact .inl rfl
    · cases h
  | ended => cases h; exact .inl rfl
  | readFailed => cases h; exact .inl rfl
  | handshakeDue => cases h; exact .inl rfl
  | close => cases h; exact .inr rfl
  | _ => cases h

/-- Events that can mean nothing to a connection: frames and the clock. -/
def isPassive : Event → Bool
  | .frame _ => true
  | .handshakeDue => true
  | .requestDue => true
  | .pingDue => true
  | _ => false

def isParting : Event → Bool
  | .close => true
  | .orphaned => true
  | .ended => true
  | .readFailed _ => true
  | _ => false

theorem caller?_of_isPassive {e : Event} (h : e.isPassive = true) : e.caller? = none := by
  cases e <;> first | rfl | cases h

theorem caller?_of_isParting {e : Event} (h : e.isParting = true) : e.caller? = none := by
  cases e <;> first | rfl | cases h

theorem caller?_of_decision {config : Config} {e : Event} {d : Decision} (h : e.decision? config = some d) :
    e.caller? = none := by
  cases e <;> first | rfl | cases h

end Event

namespace Connection

/-- What ending a connection comes to, beside what the caller that opened it is told: its side of the stream is closed
unless the stream is gone, and every request ends. -/
def farewell (t : PendingTable) : Event → List Effect
  | .close => .shutdown :: closings t ++ [.closed]
  | .ended => closings t
  | .readFailed _ => closings t
  | _ => .shutdown :: closings t

theorem filterMap_farewell {α : Type} {f : Effect → Option α} (hs : ∀ s, f (.settle s) = none) (hd : f .shutdown = none)
    (hc : f .closed = none) (t : PendingTable) (e : Event) : (farewell t e).filterMap f = [] := by
  have hclosings : (closings t).filterMap f = [] := filterMap_settles hs _ t
  have hshut : (Effect.shutdown :: closings t).filterMap f = [] := by rw [List.filterMap_cons_none hd, hclosings]
  cases e with
  | close =>
    have hlast : [Effect.closed].filterMap f = [] := List.filterMap_cons_none hc
    rw [farewell, List.filterMap_append, hshut, hlast, List.append_nil]
  | ended => exact hclosings
  | readFailed why => exact hclosings
  | _ => exact hshut

/-! ## Turns -/

def accept (c : Connection) (w : Circumstances) (a : Acknowledgement) : Connection :=
  { c with
    handshake := ⟨.established, some a⟩
    published := .established
    awaited := false
    keepalive := (c.keepaliveFor w a).1 }

def callEnvelope (w : Circumstances) (a : Acknowledgement) (id action : String) (payload : Json) : Envelope :=
  .call w.wallClock a.connectionId (.make id action payload)

def enroll (c : Connection) (w : Circumstances) (caller : Nat) (id action : String) (timeout : Duration) : Connection :=
  { c with pending := c.pending ++ [⟨id, action, deadlineAfter w.now timeout, caller⟩] }

/-- The events that mean nothing to an established connection. -/
def Idle (c : Connection) : Event → Prop
  | .frame body => ∀ r, Inbound.decode body = .ok (.response r) → r.requestId ∉ c.pending.ids
  | .handshakeDue => True
  | .pingDue => c.keepalive = none
  | _ => False

theorem Idle.caller? {c : Connection} {e : Event} (h : c.Idle e) : e.caller? = none := by
  cases e <;> first | rfl | cases h

/-- Everything that an event can do to a connection, with the news of it. -/
inductive Turn (c : Connection) (w : Circumstances) : Event → Connection → List Effect → Prop where
  /-- The connection has stopped. -/
  | refused {e : Event} : c.Over → Turn c w e c (refuse e)
  /-- A request comes too early. -/
  | unready {caller : Nat} {action : String} {payload : Json} {timeout : Duration} : c.Waiting →
      Turn c w (.request caller action payload timeout) c [.settle ⟨caller, .error .notEstablished⟩]
  /-- A sign of life comes too early. -/
  | unreadyPing {caller : Nat} : c.Waiting → Turn c w (.ping caller) c [.pinged caller (.error .notEstablished)]
  /-- The handshake stays open. -/
  | kept {e : Event} : c.Waiting → e.isPassive = true → e.decision? c.config = none → Turn c w e c []
  /-- The handshake is accepted. -/
  | accepted {body : Bytes} {a : Acknowledgement} : c.Waiting → Inbound.decode body = .ok (.acknowledgement a) →
      Turn c w (.frame body) (c.accept w a) [.connected (.ok a)]
  /-- The handshake fails. -/
  | failed {e : Event} {why : Failure} {p : Phase} : c.Waiting → e.decision? c.config = some (.fail why p) →
      Turn c w e (c.told.finish p) (.connected (.error why) :: farewell [] e)
  /-- The handshake is given up. -/
  | abandoned : c.Waiting → Turn c w .orphaned (c.finish .closed) [.shutdown]
  /-- No id is drawn that is free. -/
  | stranded {a : Acknowledgement} {caller : Nat} {action : String} {payload : Json} {timeout : Duration} :
      c.Established a → RequestId.pick? c.pending.ids w.draws = none →
      Turn c w (.request caller action payload timeout) c []
  /-- A request is sent. -/
  | called {a : Acknowledgement} {caller : Nat} {action : String} {payload : Json} {timeout : Duration} {id : String} :
      c.Established a → RequestId.pick? c.pending.ids w.draws = some id →
      (send w (callEnvelope w a id action payload)).2 = none →
      Turn c w (.request caller action payload timeout) (c.enroll w caller id action timeout)
        [.send (callEnvelope w a id action payload) none]
  /-- A request cannot be sent. -/
  | uncalled {a : Acknowledgement} {caller : Nat} {action : String} {payload : Json} {timeout : Duration} {id : String}
      {why : Failure} :
      c.Established a → RequestId.pick? c.pending.ids w.draws = some id →
      (send w (callEnvelope w a id action payload)).2 = some why →
      Turn c w (.request caller action payload timeout) (c.finish .closed)
        (.send (callEnvelope w a id action payload) (some why) :: .settle ⟨caller, .error why⟩ :: closings c.pending)
  /-- A sign of life is sent. -/
  | pinged {a : Acknowledgement} {caller : Nat} : c.Established a →
      (send w (.ping w.wallClock a.connectionId)).2 = none →
      Turn c w (.ping caller) c [.send (.ping w.wallClock a.connectionId) none, .pinged caller (.ok ())]
  /-- A sign of life cannot be sent. -/
  | unpinged {a : Acknowledgement} {caller : Nat} {why : Failure} : c.Established a →
      (send w (.ping w.wallClock a.connectionId)).2 = some why →
      Turn c w (.ping caller) (c.finish .closed)
        (.send (.ping w.wallClock a.connectionId) (some why) :: .pinged caller (.error why) :: closings c.pending)
  /-- The clock sends a sign of life. -/
  | beat {a : Acknowledgement} {k : Keepalive} : c.Established a → c.keepalive = some k →
      (send w (.ping w.wallClock a.connectionId)).2 = none →
      Turn c w .pingDue { c with keepalive := some (Keepalive.advance k w.now) }
        [.send (.ping w.wallClock a.connectionId) none]
  /-- The clock cannot send a sign of life. -/
  | unbeat {a : Acknowledgement} {k : Keepalive} {why : Failure} : c.Established a → c.keepalive = some k →
      (send w (.ping w.wallClock a.connectionId)).2 = some why →
      Turn c w .pingDue ({ c with keepalive := some (Keepalive.advance k w.now) }.finish .closed)
        (.send (.ping w.wallClock a.connectionId) (some why) :: closings c.pending)
  /-- A pending request is answered. -/
  | answered {a : Acknowledgement} {body : Bytes} {r : Response} {p : Pending} : c.Established a →
      Inbound.decode body = .ok (.response r) → p ∈ c.pending → p.id = r.requestId →
      Turn c w (.frame body) { c with pending := c.pending.without p.id } [.settle ⟨p.caller, .ok r⟩]
  /-- Some requests have waited long enough. -/
  | expired {a : Acknowledgement} : c.Established a →
      Turn c w .requestDue { c with pending := (c.pending.expire w.now).1 }
        ((c.pending.due w.now).map fun p => .settle (PendingTable.timedOut p))
  /-- The connection ends. -/
  | parted {a : Acknowledgement} {e : Event} : c.Established a → e.isParting = true →
      Turn c w e (c.finish .closed) (farewell c.pending e)
  /-- The connection goes on as it was. -/
  | unmoved {a : Acknowledgement} {e : Event} : c.Established a → c.Idle e → Turn c w e c []

theorem Turn.of_eq {c c' d : Connection} {w : Circumstances} {e : Event} {es fs : List Effect} (h : Turn c w e c' fs)
    (hc : d = c') (hn : news es = fs) : Turn c w e d (news es) := by
  rw [hc, hn]
  exact h

theorem step_of_running {c : Connection} (h : c.stopped = false) (w : Circumstances) (e : Event) :
    c.step w e = match e with
      | .request caller action payload timeout => c.onRequest w caller action payload timeout
      | .ping caller => c.onPing w caller
      | .close => c.onClose w
      | .orphaned =>
        let (c, down) := c.shutdown w
        (c, .debug "Command channel closed, driver exiting" :: down)
      | .frame body => c.onFrame w body
      | .ended =>
        let (c, lost) := c.lose "connection closed by server"
        (c, .info "Gateway closed the connection" :: lost)
      | .readFailed why =>
        let (c, lost) := c.lose why.message
        (c, .error ("Reader failed: " ++ why.message) :: lost)
      | .handshakeDue => c.onHandshakeDue w
      | .requestDue => c.onRequestDue w
      | .pingDue => c.onPingDue w := by
  unfold step
  rw [h]
  rfl

/-! ### Stopped -/

theorem Over.step {c : Connection} (h : c.Over) (w : Circumstances) (e : Event) : c.step w e = (c, refuse e) := by
  unfold Connection.step
  rw [h.stopped]
  rfl

theorem Over.turn {c : Connection} (h : c.Over) (w : Circumstances) (e : Event) :
    Turn c w e (c.step w e).1 (news (c.step w e).2) := by
  rw [h.step]
  refine (Turn.refused h).of_eq rfl ?_
  cases e <;> rfl

/-! ### Waiting -/

theorem shutdown_decided (c : Connection) (w : Circumstances) {p : Phase} (hp : p = .failed ∨ p = .closed) :
    (shutdown { c with handshake := { c.handshake with phase := p }, awaited := false } w).1 = c.told.finish p := by
  rw [shutdown_ended _ w hp]
  rfl

theorem Waiting.turn {c : Connection} (h : c.Waiting) (w : Circumstances) (e : Event) :
    Turn c w e (c.step w e).1 (news (c.step w e).2) := by
  rw [step_of_running h.running]
  have hp : c.handshake.phase.isPending = true := by rw [h.handshake]; rfl
  cases e with
  | request caller action payload timeout =>
    simp only [onRequest, h.connectionId?]
    exact .unready h
  | ping caller =>
    simp only [onPing, h.connectionId?]
    exact .unreadyPing h
  | close =>
    have hc := shutdown_decided c w (.inr rfl)
    refine (Turn.failed h rfl).of_eq ?_ ?_
    · simp only [onClose, Handshake.fail, hp, tell, if_true]
      exact hc
    · simp only [onClose, Handshake.fail, hp, tell, if_true, h.awaited, news_append, news_debug,
        news_shutdown, h.pending]
      rfl
  | orphaned =>
    refine (Turn.abandoned h).of_eq ?_ ?_
    · exact shutdown_running c w (by rw [h.handshake]; decide) (by rw [h.handshake]; decide)
    · rw [news_debug, news_shutdown, h.pending]
      rfl
  | frame body =>
    cases hd : Inbound.decode body with
    | error f =>
      simp only [onFrame, hd]
      exact .kept h rfl (by simp only [Event.decision?, hd])
    | ok m =>
      simp only [onFrame, hd, news_debug]
      cases m with
      | acknowledgement a =>
        refine (Turn.accepted h hd).of_eq ?_ ?_
        · simp only [onInbound, onAcknowledgement, Handshake.onAcknowledgement, h.handshake, tell]
          rfl
        · simp only [onInbound, onAcknowledgement, Handshake.onAcknowledgement, h.handshake, tell, news_append,
            news_greetingLines, news_keepaliveFor]
          simp only [publish, h.awaited]
          rfl
      | response r =>
        refine (Turn.kept h rfl (by simp only [Event.decision?, hd])).of_eq ?_ ?_
        · simp only [onInbound, onResponse, PendingTable.resolve, PendingTable.get?, h.pending, List.find?_nil]
          rw [← h.pending]
        · simp only [onInbound, onResponse, PendingTable.resolve, PendingTable.get?, h.pending, List.find?_nil]
          rfl
      | refusal r =>
        refine (Turn.failed h (by simp only [Event.decision?, hd]; rfl)).of_eq ?_ ?_
        · simp only [onInbound, onRefusal, Handshake.onRefusal, h.handshake, tell, publish]
          rw [shutdown_ended _ w (.inl rfl)]
          simp only [finish, told, h.handshake]
        · simp only [onInbound, onRefusal, Handshake.onRefusal, h.handshake, tell, if_true, h.awaited, news_append,
            news_error, publish, news_shutdown, h.pending]
          rfl
      | pong => exact .kept h rfl (by simp only [Event.decision?, hd])
      | unexpected kind => exact .kept h rfl (by simp only [Event.decision?, hd])
  | ended =>
    obtain ⟨hc, hn⟩ := lose_open hp h.awaited h.pending "connection closed by server"
    exact (Turn.failed h rfl).of_eq hc hn
  | readFailed why =>
    obtain ⟨hc, hn⟩ := lose_open hp h.awaited h.pending why.message
    exact (Turn.failed h rfl).of_eq hc hn
  | handshakeDue =>
    have hc := shutdown_decided c w (.inl rfl)
    refine (Turn.failed h rfl).of_eq ?_ ?_
    · simp only [onHandshakeDue, Handshake.fail, hp, tell, if_true]
      exact hc
    · simp only [onHandshakeDue, Handshake.fail, hp, tell, if_true, h.awaited, news_append, news_error,
        news_shutdown, h.pending]
      rfl
  | requestDue =>
    refine (Turn.kept h rfl rfl).of_eq ?_ ?_
    · simp only [onRequestDue, PendingTable.expire, h.pending, List.filter_nil]
      rw [← h.pending]
    · simp only [onRequestDue, PendingTable.expire, PendingTable.due, h.pending, List.filter_nil]
      rfl
  | pingDue =>
    simp only [onPingDue, h.keepalive]
    exact .kept h rfl rfl

/-! ### Established -/

theorem Established.request_turn {c : Connection} {a : Acknowledgement} (h : c.Established a) (w : Circumstances)
    (caller : Nat) (action : String) (payload : Json) (timeout : Duration) :
    Turn c w (.request caller action payload timeout) (c.onRequest w caller action payload timeout).1
      (news (c.onRequest w caller action payload timeout).2) := by
  cases hp : RequestId.pick? c.pending.ids w.draws with
  | none =>
    simp only [onRequest, h.connectionId?, hp]
    exact .stranded h hp
  | some id =>
    have hfresh := (RequestId.pick?_eq_some hp).2
    have hsent := news_send_fst w (callEnvelope w a id action payload)
    simp only [onRequest, h.connectionId?, hp]
    rw [show Envelope.call w.wallClock a.connectionId (Call.make id action payload) =
      callEnvelope w a id action payload from rfl]
    cases hs : send w (callEnvelope w a id action payload) with
    | mk sent fault =>
      rw [hs] at hsent
      cases fault with
      | none =>
        refine (Turn.called h hp (by rw [hs])).of_eq ?_ hsent
        simp only [PendingTable.register_of_fresh (p := ⟨id, action, deadlineAfter w.now timeout, caller⟩) hfresh]
        rfl
      | some why =>
        have hlost := lose_established (c := c) (by rw [h.handshake]) why.message
        refine (Turn.uncalled h hp (by rw [hs])).of_eq ?_ ?_
        · simp only [PendingTable.register_fail (p := ⟨id, action, deadlineAfter w.now timeout, caller⟩) hfresh]
          exact hlost.1
        · simp only [PendingTable.register_fail (p := ⟨id, action, deadlineAfter w.now timeout, caller⟩) hfresh,
            news_append, hsent]
          rw [hlost.2]
          rfl

theorem Established.ping_turn {c : Connection} {a : Acknowledgement} (h : c.Established a) (w : Circumstances)
    (caller : Nat) : Turn c w (.ping caller) (c.onPing w caller).1 (news (c.onPing w caller).2) := by
  have hsent := news_send_fst w (.ping w.wallClock a.connectionId)
  simp only [onPing, h.connectionId?]
  cases hs : send w (.ping w.wallClock a.connectionId) with
  | mk sent fault =>
    rw [hs] at hsent
    cases fault with
    | none =>
      refine (Turn.pinged h (by rw [hs])).of_eq rfl ?_
      rw [news_append, hsent]
      rfl
    | some why =>
      have hlost := lose_established (c := c) (by rw [h.handshake]) why.message
      refine (Turn.unpinged h (by rw [hs])).of_eq hlost.1 ?_
      rw [news_append, hsent, news_pinged, hlost.2]
      rfl

theorem Established.pingDue_turn {c : Connection} {a : Acknowledgement} (h : c.Established a) (w : Circumstances) :
    Turn c w .pingDue (c.onPingDue w).1 (news (c.onPingDue w).2) := by
  cases hk : c.keepalive with
  | none =>
    simp only [onPingDue, hk]
    exact .unmoved h hk
  | some k =>
    have hsent := news_send_fst w (.ping w.wallClock a.connectionId)
    simp only [onPingDue, hk, h.connectionId?, Option.getD_some]
    cases hs : send w (.ping w.wallClock a.connectionId) with
    | mk sent fault =>
      rw [hs] at hsent
      cases fault with
      | none => exact (Turn.beat h hk (by rw [hs])).of_eq rfl hsent
      | some why =>
        have hlost := lose_established (c := { c with keepalive := some (Keepalive.advance k w.now) })
          (by rw [h.handshake]) why.message
        refine (Turn.unbeat h hk (by rw [hs])).of_eq hlost.1 ?_
        rw [news_append, hsent, news_error, hlost.2]
        rfl

theorem Established.frame_turn {c : Connection} {a : Acknowledgement} (h : c.Established a) (w : Circumstances)
    (body : Bytes) : Turn c w (.frame body) (c.onFrame w body).1 (news (c.onFrame w body).2) := by
  cases hd : Inbound.decode body with
  | error f =>
    simp only [onFrame, hd]
    exact .unmoved h (fun r hr => by rw [hd] at hr; cases hr)
  | ok m =>
    simp only [onFrame, hd, news_debug]
    cases m with
    | response r =>
      cases hg : c.pending.get? r.requestId with
      | none =>
        simp only [onInbound, onResponse, PendingTable.resolve, hg]
        refine .unmoved h (fun r' hr => ?_)
        rw [hd] at hr
        cases hr
        exact PendingTable.get?_eq_none_iff.mp hg
      | some p =>
        obtain ⟨hp, hid⟩ := PendingTable.mem_of_get? hg
        refine (Turn.answered h hd hp hid).of_eq ?_ ?_
        · simp only [onInbound, onResponse, PendingTable.resolve, hg, hid]
        · simp only [onInbound, onResponse, PendingTable.resolve, hg]
          cases (if (!w.gone.contains p.caller) = true then Delivery.delivered p.action
            else Delivery.callerGone p.action) <;> rfl
    | acknowledgement b =>
      simp only [onInbound, onAcknowledgement, Handshake.onAcknowledgement, h.handshake]
      exact .unmoved h (fun r hr => by rw [hd] at hr; cases hr)
    | refusal b =>
      simp only [onInbound, onRefusal, Handshake.onRefusal, h.handshake]
      refine (Turn.unmoved (e := .frame body) h (fun r hr => by rw [hd] at hr; cases hr)).of_eq ?_ rfl
      rw [← h.handshake]
    | pong => exact .unmoved h (fun r hr => by rw [hd] at hr; cases hr)
    | unexpected kind => exact .unmoved h (fun r hr => by rw [hd] at hr; cases hr)

theorem Established.turn {c : Connection} {a : Acknowledgement} (h : c.Established a) (w : Circumstances) (e : Event) :
    Turn c w e (c.step w e).1 (news (c.step w e).2) := by
  rw [step_of_running h.running]
  have hp : c.handshake.phase = .established := by rw [h.handshake]
  cases e with
  | request caller action payload timeout => exact h.request_turn w caller action payload timeout
  | ping caller => exact h.ping_turn w caller
  | close =>
    refine (Turn.parted h rfl).of_eq ?_ ?_
    · simp only [onClose, Handshake.fail, hp, Phase.isPending]
      rw [shutdown_ended _ w (.inr rfl)]
      rfl
    · simp only [onClose, Handshake.fail, hp, Phase.isPending, news_debug, news_append, news_shutdown]
      rfl
  | orphaned =>
    refine (Turn.parted h rfl).of_eq ?_ ?_
    · exact shutdown_running c w (by rw [hp]; decide) (by rw [hp]; decide)
    · exact news_shutdown c w
  | frame body => exact h.frame_turn w body
  | ended =>
    obtain ⟨hc, hn⟩ := lose_established hp "connection closed by server"
    exact (Turn.parted h rfl).of_eq hc hn
  | readFailed why =>
    obtain ⟨hc, hn⟩ := lose_established hp why.message
    exact (Turn.parted h rfl).of_eq hc hn
  | handshakeDue =>
    simp only [onHandshakeDue, hp, Phase.isPending]
    exact .unmoved h trivial
  | requestDue =>
    refine (Turn.expired h).of_eq rfl ?_
    simp only [onRequestDue, PendingTable.expire, news_append, news_lines, List.map_map, List.nil_append]
    exact news_settles _ _
  | pingDue => exact h.pingDue_turn w

/-! ### All stages -/

theorem turn_step {c : Connection} (h : c.Sound) (w : Circumstances) (e : Event) :
    Turn c w e (c.step w e).1 (news (c.step w e).2) := by
  cases h with
  | waiting h => exact h.turn w e
  | established h => exact h.turn w e
  | ended h => exact h.turn w e

theorem Turn.config_eq {c c' : Connection} {w : Circumstances} {e : Event} {es : List Effect} (h : Turn c w e c' es) :
    c'.config = c.config := by
  cases h <;> rfl

theorem Waiting.accept {c : Connection} (h : c.Waiting) (w : Circumstances) (a : Acknowledgement) :
    (c.accept w a).Established a where
  running := h.running
  handshake := rfl
  published := rfl
  awaited := rfl
  distinct := by
    rw [show (c.accept w a).pending = [] from h.pending]
    exact List.nodup_nil
  granted := granted_keepalive

theorem Turn.sound {c c' : Connection} {w : Circumstances} {e : Event} {es : List Effect} (h : Turn c w e c' es) :
    c'.Sound := by
  cases h with
  | refused h => exact .ended h
  | unready h => exact .waiting h
  | unreadyPing h => exact .waiting h
  | kept h => exact .waiting h
  | accepted h => exact .established (h.accept w _)
  | failed h hd => exact .ended (over_finish _ (Event.phase_of_decision hd))
  | abandoned h => exact .ended (over_finish c (.inr rfl))
  | stranded h => exact .established h
  | called h hp =>
    have hfresh := (RequestId.pick?_eq_some hp).2
    exact .established { h with distinct := PendingTable.nodup_ids_append h.distinct hfresh }
  | uncalled => exact .ended (over_finish c (.inr rfl))
  | pinged h => exact .established h
  | unpinged => exact .ended (over_finish c (.inr rfl))
  | beat h hk => exact .established { h with granted := fun _ => h.granted (by rw [hk]; exact Option.some_ne_none _) }
  | unbeat => exact .ended (over_finish _ (.inr rfl))
  | answered h =>
    exact .established { h with distinct := PendingTable.nodup_ids_of_sublist List.filter_sublist h.distinct }
  | expired h =>
    exact .established { h with distinct := PendingTable.nodup_ids_of_sublist List.filter_sublist h.distinct }
  | parted => exact .ended (over_finish c (.inr rfl))
  | unmoved h => exact .established h

/-- Nothing happens to a connection that has stopped. -/
theorem Turn.of_over {c c' : Connection} {w : Circumstances} {e : Event} {es : List Effect} (h : Turn c w e c' es)
    (ho : c.Over) : c' = c ∧ es = refuse e := by
  cases h with
  | refused => exact ⟨rfl, rfl⟩
  | unready h => exact absurd h ho.not_waiting
  | unreadyPing h => exact absurd h ho.not_waiting
  | kept h => exact absurd h ho.not_waiting
  | accepted h => exact absurd h ho.not_waiting
  | failed h => exact absurd h ho.not_waiting
  | abandoned h => exact absurd h ho.not_waiting
  | _ => exact absurd ‹c.Established _› ho.not_established

/-- An established connection keeps its acknowledgement until it ends. -/
theorem Turn.of_established {c c' : Connection} {w : Circumstances} {e : Event} {es : List Effect} (h : Turn c w e c' es)
    {a : Acknowledgement} (ha : c.Established a) : c'.Established a ∨ c'.Over ∧ c'.published = .closed := by
  have hsound := h.sound
  cases h with
  | refused h => exact absurd ha h.not_established
  | unready h => exact absurd ha h.not_established
  | unreadyPing h => exact absurd ha h.not_established
  | kept h => exact absurd ha h.not_established
  | accepted h => exact absurd ha h.not_established
  | failed h => exact absurd ha h.not_established
  | abandoned h => exact absurd ha h.not_established
  | uncalled => exact .inr ⟨over_finish _ (.inr rfl), rfl⟩
  | unpinged => exact .inr ⟨over_finish _ (.inr rfl), rfl⟩
  | unbeat => exact .inr ⟨over_finish _ (.inr rfl), rfl⟩
  | parted => exact .inr ⟨over_finish _ (.inr rfl), rfl⟩
  | _ => exact .inl (hsound.established_of ha.handshake)

end Connection
end TransitLink
