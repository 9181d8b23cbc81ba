import TransitLink.Link.Connection
import TransitLink.Proofs.Link.News
import TransitLink.Proofs.Link.Table

/-!
# The stages of a connection

* `Connection.Waiting`, `Established`, `Over` : the three stages of a connection that has been opened; `Sound` : it is
  in one of them.
* `finish`, `closings` : a connection that has ended, and what its callers are told. `Connection.lose` and
  `Connection.shutdown` come to these in every stage.
* `send_fault` : where a fault of sending comes from. `granted_keepalive` : when the clock sends signs of life.
-/

namespace TransitLink.Connection

set_option autoImplicit false

/-! ## Stages -/

/-- The greeting was sent and the handshake is open. -/
structure Waiting (c : Connection) : Prop where
  running : c.stopped = false
  handshake : c.handshake = ⟨.greeted, none⟩
  published : c.published = .greeted
  awaited : c.awaited = true
  pending : c.pending = []
  keepalive : c.keepalive = none

/-- The server's acknowledgement was accepted and the connection goes on. -/
structure Established (c : Connection) (a : Acknowledgement) : Prop where
  running : c.stopped = false
  handshake : c.handshake = ⟨.established, some a⟩
  published : c.published = .established
  awaited : c.awaited = false
  distinct : c.pending.ids.Nodup
  /-- Signs of life are sent by the clock only if both sides want them, and at most a day apart. -/
  granted : c.keepalive ≠ none →
    c.config.keepalive = true ∧ ∃ s, a.heartbeatSeconds = some s ∧ 1 ≤ s ∧ s ≤ 86400

structure Over (c : Connection) : Prop where
  stopped : c.stopped = true
  pending : c.pending = []
  published : c.published = c.handshake.phase
  phase : c.published = .failed ∨ c.published = .closed

inductive Sound (c : Connection) : Prop where
  | waiting (h : c.Waiting)
  | established {a : Acknowledgement} (h : c.Established a)
  | ended (h : c.Over)

theorem Waiting.connectionId? {c : Connection} (h : c.Waiting) : c.handshake.connectionId? = none := by
  rw [h.handshake]; rfl

theorem Established.connectionId? {c : Connection} {a : Acknowledgement} (h : c.Established a) :
    c.handshake.connectionId? = some a.connectionId := by
  rw [h.handshake]; rfl

theorem Waiting.unestablished {c : Connection} (h : c.Waiting) : c.published ≠ .established := by
  rw [h.published]
  decide

theorem Over.unestablished {c : Connection} (h : c.Over) : c.published ≠ .established := by
  rcases h.phase with hp | hp
  · rw [hp]; decide
  · rw [hp]; decide

theorem Waiting.not_established {c : Connection} {a : Acknowledgement} (h : c.Waiting) : ¬c.Established a := by
  intro ha
  exact h.unestablished ha.published

theorem Over.not_waiting {c : Connection} (h : c.Over) : ¬c.Waiting := by
  intro hw
  have hstopped := h.stopped
  rw [hw.running] at hstopped
  cases hstopped

theorem Over.not_established {c : Connection} {a : Acknowledgement} (h : c.Over) : ¬c.Established a := by
  intro ha
  exact h.unestablished ha.published

/-- A sound connection that has accepted an acknowledgement and goes on is established with it. -/
theorem Sound.established_of {c : Connection} {a : Acknowledgement} (h : c.Sound)
    (ha : c.handshake = ⟨.established, some a⟩) : c.Established a := by
  cases h with
  | waiting h =>
    rw [h.handshake] at ha
    cases ha
  | @established b h =>
    have hsame := h.handshake.symm.trans ha
    cases hsame
    exact h
  | ended h =>
    have hp := h.published
    rw [ha] at hp
    exact absurd hp h.unestablished

theorem Sound.distinct {c : Connection} (h : c.Sound) : c.pending.ids.Nodup := by
  cases h with
  | waiting h =>
    rw [h.pending]
    exact List.nodup_nil
  | established h => exact h.distinct
  | ended h =>
    rw [h.pending]
    exact List.nodup_nil

theorem Sound.pending_of_stopped {c : Connection} (h : c.Sound) (hs : c.stopped = true) : c.pending = [] := by
  cases h with
  | waiting h => exact h.pending
  | established h =>
    rw [h.running] at hs
    cases hs
  | ended h => exact h.pending

/-! ## Ending -/

def finish (c : Connection) (p : Phase) : Connection :=
  { c with handshake := { c.handshake with phase := p }, published := p, pending := [], stopped := true }

def told (c : Connection) : Connection := { c with awaited := false }

def closings (t : PendingTable) : List Effect := t.map fun p => .settle ⟨p.caller, .error .connectionClosed⟩

@[simp] theorem news_closings (t : PendingTable) : news (closings t) = closings t := news_settles _ t

theorem over_finish (c : Connection) {p : Phase} (h : p = .failed ∨ p = .closed) : (c.finish p).Over :=
  ⟨rfl, rfl, rfl, h⟩

theorem news_failPending (c : Connection) : news c.failPending.2 = closings c.pending := by
  change news ((c.pending.map _).map Effect.settle ++ if 0 < c.pending.length then [.warn _] else []) = _
  rw [news_append, List.map_map]
  split
  · exact (List.append_nil _).trans (news_closings _)
  · exact (List.append_nil _).trans (news_closings _)

theorem news_shutdown (c : Connection) (w : Circumstances) :
    news (c.shutdown w).2 = .shutdown :: closings c.pending := by
  unfold shutdown
  by_cases h : c.handshake.phase = .failed ∨ c.handshake.phase = .closed
  · cases w.shutdownFault <;> simp [h, news_failPending]
  · cases w.shutdownFault <;> simp [h, news_failPending]

theorem shutdown_running (c : Connection) (w : Circumstances) (hf : c.handshake.phase ≠ .failed)
    (hc : c.handshake.phase ≠ .closed) : (c.shutdown w).1 = c.finish .closed := by
  unfold shutdown
  simp only [hf, hc, or_self, if_false]
  rfl

theorem shutdown_ended (c : Connection) (w : Circumstances)
    (h : c.handshake.phase = .failed ∨ c.handshake.phase = .closed) : (c.shutdown w).1 = c.finish c.handshake.phase := by
  unfold shutdown
  simp only [h, if_true]
  rfl

theorem onLost_of_isPending {h : Handshake} (hp : h.phase.isPending = true) (reason : String) :
    h.onLost reason = ({ h with phase := .failed }, some (.closedBeforeHandshake reason)) := by
  unfold Handshake.onLost
  cases hh : h.phase <;> simp_all [Phase.isPending]

/-- The stream is lost while the handshake is open. -/
theorem lose_open {c : Connection} (hp : c.handshake.phase.isPending = true) (ha : c.awaited = true)
    (ht : c.pending = []) (reason : String) :
    (c.lose reason).1 = c.told.finish .failed ∧
      news (c.lose reason).2 = [.connected (.error (.closedBeforeHandshake reason))] := by
  constructor
  · simp only [lose, onLost_of_isPending hp, tell]
    rfl
  · simp only [lose, onLost_of_isPending hp, tell, ha, if_true, news_append, news_failPending, ht]
    rfl

theorem lose_established {c : Connection} (h : c.handshake.phase = .established) (reason : String) :
    (c.lose reason).1 = c.finish .closed ∧ news (c.lose reason).2 = closings c.pending := by
  constructor
  · simp only [lose, Handshake.onLost, h]
    rfl
  · simp only [lose, Handshake.onLost, h, List.nil_append, news_failPending]

/-! ## Sending -/

theorem news_send_fst (w : Circumstances) (x : Envelope) : news (send w x).1 = [.send x (send w x).2] := by
  simp only [send, news_debug, news_send, news_nil]

/-- A fault of sending comes from the length of the frame or from the stream. -/
theorem send_fault {w : Circumstances} {x : Envelope} {f : Failure} (h : (send w x).2 = some f) :
    Frame.encode x.toBytes = .error f ∨ w.writeFault = some f := by
  simp only [send] at h
  cases he : Frame.encode x.toBytes with
  | error g =>
    simp only [he, Option.some.injEq] at h
    exact .inl (h ▸ rfl)
  | ok b =>
    simp only [he] at h
    exact .inr h

/-! ## Accepting -/

theorem news_greetingLines (a : Acknowledgement) : news (greetingLines a) = [] := by
  unfold greetingLines
  rw [news_append, news_append]
  cases a.protocolVersion with
  | none => cases a.message <;> rfl
  | some v =>
    simp only
    split <;> cases a.message <;> rfl

theorem news_keepaliveFor (c : Connection) (w : Circumstances) (a : Acknowledgement) :
    news (c.keepaliveFor w a).2 = [] := by
  unfold keepaliveFor
  cases a.heartbeatSeconds with
  | none => rfl
  | some s =>
    cases s with
    | zero => rfl
    | succ s =>
      simp only
      split
      · rfl
      · split
        · rw [news_warn, news_nil]
        · rw [news_debug, news_nil]

theorem granted_keepalive {c : Connection} {w : Circumstances} {a : Acknowledgement} (h : (c.keepaliveFor w a).1 ≠ none) :
    c.config.keepalive = true ∧ ∃ s, a.heartbeatSeconds = some s ∧ 1 ≤ s ∧ s ≤ 86400 := by
  unfold keepaliveFor at h
  cases hs : a.heartbeatSeconds with
  | none => simp [hs] at h
  | some s =>
    cases s with
    | zero => simp [hs] at h
    | succ s =>
      simp only [hs] at h
      split at h
      · exact absurd rfl h
      · rename_i hk
        split at h
        · exact absurd rfl h
        · rename_i hlimit
          refine ⟨by simpa using hk, s + 1, rfl, by omega, ?_⟩
          simp only [maxKeepalive, Duration.ofSeconds] at hlimit
          omega

end TransitLink.Connection
