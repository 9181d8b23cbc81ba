import TransitLink.Client
import TransitLink.Proofs.Link.Fatality
import TransitLink.Proofs.Link.Wire

/-!
# What a client hands to its connection

* `accepted_iff` : a handshake was accepted if and only if the connection was established at some time.
  `Turn.never_early` : nothing comes too early for a connection whose handshake is not open.
* `Past` : how the latest connection of a client was opened, and what has happened to it since. `Past.Completed` : its
  handshake was completed.
* `History` : what a client comes to when it connects, is closed, and its connections go their ways and take up what they
  were handed.
* `Knows` : a client knows how the handshake of its latest connection ended (`Tracks`), if it ever had one.
  `Tracks.start`, `Tracks.feed`, `Knows.dial` : it goes on knowing.
* `Gate` : what is handed on and what is kept back, by the past of the latest connection. `Knows.gate` : what a client
  knows is enough for that. `History.known` : and it knows all along.
* `gate_keeps_out` : requests and signs of life are handed on only to an established connection, and fail else as the past
  of the latest connection says.
-/

namespace TransitLink

set_option autoImplicit false

namespace Event

def isOutside : Event → Bool
  | .frame _ => true
  | .ended => true
  | .readFailed _ => true
  | .handshakeDue => true
  | .requestDue => true
  | .pingDue => true
  | _ => false

def isWish : Event → Bool
  | .request _ _ _ _ => true
  | .ping _ => true
  | _ => false

end Event

/-! ## Accepted handshakes -/

namespace Connection

theorem Sound.established_of_published {c : Connection} (h : c.Sound) (hp : c.published = .established) :
    ∃ a, c.Established a := by
  cases h with
  | waiting h => exact absurd hp h.unestablished
  | established h => exact ⟨_, h⟩
  | ended h => exact absurd hp h.unestablished

/-- A handshake was accepted if and only if the connection was established at some time. -/
theorem accepted_iff {config : Config} {w₀ : Circumstances} {es : List (Circumstances × Event)} :
    (∃ a, decided? config w₀ es = some (.accept a)) ↔
      ∃ before, before <+: es ∧ (life config w₀ before).1.published = .established := by
  constructor
  · rintro ⟨a, ha⟩
    rcases decided?_eq_some.mp ha with hopen | ⟨before, w, e, after, rfl, hbefore, he⟩
    · obtain ⟨_, hfail⟩ := openDecision?_eq_some hopen
      cases hfail
    · have hwaiting : (life config w₀ before).1.Waiting := by
        have hstanding := (life_standing config w₀ before).1
        rw [hbefore] at hstanding
        exact hstanding.waiting
      rw [← life_config config w₀ before] at he
      exact ⟨before ++ [(w, e)], ⟨after, List.append_assoc ..⟩,
        ((life_turn config w₀ before w e).phase_decided hwaiting he).1⟩
  · rintro ⟨before, ⟨after, rfl⟩, hp⟩
    obtain ⟨a, ha⟩ := (life_sound config w₀ before).established_of_published hp
    exact ⟨a, decided?_append (life_established ha) after⟩

theorem send_ne_notEstablished {w : Circumstances} (hw : w.writeFault ≠ some .notEstablished) (x : Envelope) :
    (send w x).2 ≠ some .notEstablished := by
  intro hfault
  rcases send_fault hfault with hencode | hwrite
  · obtain ⟨_, hreason⟩ := encode_fault hencode
    cases hreason
  · exact hw hwrite

/-- **Nothing comes too early** for a connection whose handshake is not open. -/
theorem Turn.never_early {c c' : Connection} {w : Circumstances} {e : Event} {es : List Effect} (h : Turn c w e c' es)
    (hc : ¬c.Waiting) (hw : w.writeFault ≠ some .notEstablished) : .notEstablished ∉ failures es := by
  intro hf
  cases h with
  | refused => cases e <;> simp [refuse, failures] at hf
  | unready h => exact hc h
  | unreadyPing h => exact hc h
  | failed h => exact hc h
  | uncalled _ _ hfault =>
    rcases List.mem_cons.mp hf with rfl | hrest
    · exact send_ne_notEstablished hw _ hfault
    · cases failures_closings hrest
  | unpinged _ hfault =>
    rcases List.mem_cons.mp hf with rfl | hrest
    · exact send_ne_notEstablished hw _ hfault
    · cases failures_closings hrest
  | unbeat => cases failures_closings hf
  | parted => cases failures_farewell hf
  | expired =>
    obtain ⟨p, -, hp⟩ := failures_timedOut hf
    cases hp
  | _ => cases hf

end Connection

namespace Client

/-! ## Pasts -/

/-- How the latest connection of a client was opened, and what has happened to it since. -/
structure Past where
  opening : Circumstances
  events : List (Circumstances × Event) := []

namespace Past

def later (p : Past) (w : Circumstances) (e : Event) : Past := { p with events := p.events ++ [(w, e)] }

variable (config : Config)

def link (p : Past) : Connection := (Connection.life config p.opening p.events).1

/-- What has decided the handshake, if anything has. -/
def decided? (p : Past) : Option Decision := Connection.decided? config p.opening p.events

/-- The handshake was completed: at some time the connection was established. -/
def Completed (p : Past) : Prop :=
  ∃ before, before <+: p.events ∧ (Connection.life config p.opening before).1.published = .established

theorem standing (p : Past) : Connection.Standing (p.link config) (p.decided? config) :=
  (Connection.life_standing config p.opening p.events).1

theorem link_later (p : Past) (w : Circumstances) (e : Event) :
    (p.later w e).link config = ((p.link config).step w e).1 :=
  Connection.life_snoc_fst config p.opening p.events w e

theorem decided?_later (p : Past) (w : Circumstances) (e : Event) :
    (p.later w e).decided? config = (p.decided? config).or (e.decision? config) :=
  Connection.decided?_snoc config p.opening p.events w e

/-- What the caller that opened the connection is told by one more event. -/
theorem verdicts_later (p : Past) (w : Circumstances) (e : Event) :
    ((p.decided? config).bind Decision.result?).toList ++ verdicts ((p.link config).step w e).2 =
      (((p.later w e).decided? config).bind Decision.result?).toList := by
  have htold := ((Connection.life_turn config p.opening p.events w e).standing (p.standing config)).2
  rw [Connection.life_config, verdicts_news] at htold
  rw [decided?_later]
  exact htold

theorem Completed.later {config : Config} {p : Past} (h : p.Completed config) (w : Circumstances) (e : Event) :
    (p.later w e).Completed config := by
  obtain ⟨before, hbefore, hp⟩ := h
  exact ⟨before, hbefore.trans (List.prefix_append _ _), hp⟩

theorem completed_iff {config : Config} {p : Past} : p.Completed config ↔ ∃ a, p.decided? config = some (.accept a) :=
  Connection.accepted_iff.symm

end Past

/-- The past after opening a connection was tried. -/
def dialled (config : Config) (w : Circumstances) (outcome : DialOutcome) (past : Option Past) : Option Past :=
  match config.validate with
  | .error _ => past
  | .ok () => if outcome = .opened then some ⟨w, []⟩ else past.map fun p => p.later w .close

/-- What a client comes to, with the past of its latest connection and what that was handed and has not taken up yet:
opening connections is tried, each time until the caller has heard how it ends; the connection is closed, goes its ways,
is handed what passes the gate, and takes that up in order. Whatever was handed before a close or before the next attempt
is taken up before it. -/
inductive History (config : Config) : Client → Option Past → List Event → Prop where
  | new : History config { config := config } none []
  | dialled {c : Client} {past : Option Past} (w : Circumstances) (outcome : DialOutcome) :
      History config c past [] → c.waiting = false →
      History config (c.dial w outcome).1 (dialled config w outcome past) []
  | closed {c : Client} {past : Option Past} (w : Circumstances) : History config c past [] → c.waiting = false →
      History config (c.close w).1 (past.map fun p => p.later w .close) []
  | outside {c : Client} {past : Option Past} {queue : List Event} (w : Circumstances) {e : Event} :
      History config c past queue → e.isOutside = true →
      History config (c.feed w e).1 (past.map fun p => p.later w e) queue
  | handed {c : Client} {past : Option Past} {queue : List Event} {e : Event} : History config c past queue →
      c.gate = .ok () → e.isWish = true → History config c past (queue ++ [e])
  | taken {c : Client} {past : Option Past} {queue : List Event} {e : Event} (w : Circumstances) :
      History config c past (e :: queue) → History config (c.feed w e).1 (past.map fun p => p.later w e) queue

/-! ## What a client knows -/

/-- A client knows how the handshake of its latest connection ended, if it has ended. -/
structure Tracks (config : Config) (c : Client) (p : Past) : Prop where
  config_eq : c.config = config
  connection : c.connection = some (p.link config)
  waiting : c.waiting = (p.decided? config).isNone
  heard : c.heard = (p.decided? config).bind Decision.result?
  /-- Nobody has given the handshake up. -/
  kept : p.decided? config ≠ some .abandon

/-- Of what a connection does, a client hears only what the caller that opened it is told. -/
theorem foldl_hear (es : List Effect) (c : Client) :
    es.foldl hear c = (verdicts es).foldl (fun c r => c.hear (.connected r)) c := by
  induction es generalizing c with
  | nil => rfl
  | cons e es ih => cases e <;> exact ih _

theorem follow_silent {es : List Effect} (h : verdicts es = []) (c : Client) (link : Connection) :
    c.follow link es = { c with connection := some link } := by
  rw [follow, foldl_hear, h, List.foldl_nil]

/-- A client that waits hears how the handshake ends, if it ends. -/
theorem follow_decided {c : Client} {d : Option Decision} {es : List Effect} (hd : d ≠ some .abandon)
    (hes : verdicts es = (d.bind Decision.result?).toList) (hw : c.waiting = true) (hh : c.heard = none)
    (link : Connection) :
    c.follow link es =
      { c with connection := some link, waiting := d.isNone, heard := d.bind Decision.result? } := by
  have hheard : ∀ r, hear { c with connection := some link } (.connected r) =
      { c with connection := some link, waiting := false, heard := some r } := fun r => if_pos hw
  cases d with
  | none =>
    rw [follow_silent hes, Option.isNone_none, Option.bind_none, ← hw, ← hh]
  | some d =>
    rw [follow, foldl_hear, hes]
    cases d with
    | fail why phase => exact hheard _
    | accept a => exact hheard _
    | abandon => exact absurd rfl hd

theorem Tracks.of_verdicts {config : Config} {c : Client} {p : Past} {d : Option Decision} {es : List Effect}
    (hc : c.config = config) (hw : c.waiting = true) (hh : c.heard = none) (hd : p.decided? config = d)
    (hkept : d ≠ some .abandon) (hes : verdicts es = (d.bind Decision.result?).toList) :
    Tracks config (c.follow (p.link config) es) p := by
  rw [follow_decided hkept hes hw hh]
  refine ⟨hc, rfl, ?_, ?_, ?_⟩
  · rw [hd]
  · rw [hd]
  · rwa [hd]

theorem Tracks.start {config : Config} {c : Client} (hc : c.config = config) (w : Circumstances) :
    Tracks config (c.start w).1 ⟨w, []⟩ := by
  have hstart : (c.start w).1 = follow { c with waiting := true, heard := none } ((⟨w, []⟩ : Past).link config)
      (Connection.open config w).2 := by
    rw [← hc, Client.start, Past.link, Connection.life_nil]
  rw [hstart]
  refine .of_verdicts hc rfl rfl (Connection.decided?_nil config w) ?_ (Connection.open_standing config w).2
  intro hgone
  obtain ⟨_, hfail⟩ := Connection.openDecision?_eq_some hgone
  cases hfail

theorem Tracks.feed {config : Config} {c : Client} {p : Past} (h : Tracks config c p) (w : Circumstances) {e : Event}
    (he : e ≠ .orphaned) : Tracks config (c.feed w e).1 (p.later w e) := by
  have hfeed : (c.feed w e).1 = c.follow ((p.later w e).link config) ((p.link config).step w e).2 := by
    rw [Client.feed, h.connection, p.link_later config]
  have hdecided := p.decided?_later config w e
  have htold := p.verdicts_later config w e
  rw [hfeed]
  cases hd : p.decided? config with
  -- the handshake is open, so the client hears what the event decides
  | none =>
    have hwaiting : c.waiting = true := by rw [h.waiting, hd, Option.isNone_none]
    have hheard : c.heard = none := by rw [h.heard, hd, Option.bind_none]
    rw [hd, Option.none_or] at hdecided
    rw [hd, hdecided] at htold
    exact .of_verdicts h.config_eq hwaiting hheard hdecided (fun hgone => he (Connection.decision?_eq_abandon hgone)) htold
  -- it has been decided, and nobody is told again
  | some d =>
    have hsame : (p.later w e).decided? config = p.decided? config := by rw [hdecided, hd, Option.some_or]
    have hsilent : verdicts ((p.link config).step w e).2 = [] := by
      rw [hsame] at htold
      exact List.append_right_eq_self.mp htold
    rw [follow_silent hsilent]
    refine ⟨h.config_eq, rfl, ?_, ?_, ?_⟩
    · rw [hsame]
      exact h.waiting
    · rw [hsame]
      exact h.heard
    · rw [hsame]
      exact h.kept

/-- What a client with this past knows: it is new, or knows how the latest handshake ended. -/
def Knows (config : Config) (c : Client) : Option Past → Prop
  | none => c = { config := config }
  | some p => Tracks config c p

theorem Knows.config_eq {config : Config} {c : Client} {past : Option Past} (h : Knows config c past) :
    c.config = config := by
  cases past with
  | none => rw [show c = { config := config } from h]
  | some p => exact Tracks.config_eq h

theorem Knows.feed {config : Config} {c : Client} {past : Option Past} (h : Knows config c past) (w : Circumstances)
    {e : Event} (he : e ≠ .orphaned) : Knows config (c.feed w e).1 (past.map fun p => p.later w e) := by
  cases past with
  | none =>
    cases h
    rfl
  | some p => exact Tracks.feed h w he

/-- Opening a connection, but for what is said about it. -/
theorem dial_fst (c : Client) (w : Circumstances) (outcome : DialOutcome) :
    (c.dial w outcome).1 = match c.config.validate with
      | .error _ => c
      | .ok () => if outcome = .opened then ((c.close w).1.start w).1 else (c.close w).1 := by
  rw [Client.dial]
  cases c.config.validate with
  | error why => rfl
  | ok u =>
    generalize c.close w = x
    obtain ⟨c', closing⟩ := x
    cases outcome with
    | opened =>
      simp only [dialFailure, if_true]
    | timedOut => rfl
    | refused words => rfl
    | delaying words => rfl

theorem Knows.dial {config : Config} {c : Client} {past : Option Past} (h : Knows config c past) (w : Circumstances)
    (outcome : DialOutcome) : Knows config (c.dial w outcome).1 (dialled config w outcome past) := by
  have hclosed := h.feed w (e := .close) (fun hgone => by cases hgone)
  have hconfig := h.config_eq
  rw [dial_fst, dialled, hconfig]
  cases config.validate with
  | error why => exact h
  | ok u =>
    cases outcome with
    | opened => exact Tracks.start hclosed.config_eq w
    | timedOut => exact hclosed
    | refused words => exact hclosed
    | delaying words => exact hclosed

/-! ## The gate -/

/-- The latest connection that was started had completed its handshake. -/
def Acknowledged (config : Config) (past : Option Past) : Prop := ∃ p ∈ past, p.Completed config

/-- The gate of a client whose latest caller has heard. -/
inductive Gate (config : Config) (c : Client) (past : Option Past) : Prop where
  | opened : c.phase = .established → c.gate = .ok () → Gate config c past
  /-- Nothing is handed on, and closing does nothing. -/
  | shut (why : Failure) : c.phase ≠ .established → c.gate = .error why →
      (why = .connectionClosed ∧ Acknowledged config past ∨ why = .notEstablished ∧ ¬Acknowledged config past) →
      (∀ w, (c.close w).1 = c ∧ ∀ x ∈ (c.close w).2, x = .closed) → Gate config c past

theorem Tracks.phase_eq {config : Config} {c : Client} {p : Past} (h : Tracks config c p) :
    c.phase = (p.link config).published := by
  rw [phase, h.connection]
  rfl

theorem Tracks.info_eq {config : Config} {c : Client} {p : Past} (h : Tracks config c p) :
    c.info = ((p.decided? config).bind Decision.result?).bind Except.toOption := by
  rw [info, h.heard]

theorem Tracks.close_over {config : Config} {c : Client} {p : Past} (h : Tracks config c p) (hover : (p.link config).Over)
    (w : Circumstances) : (c.close w).1 = c ∧ ∀ x ∈ (c.close w).2, x = .closed := by
  have hclose : c.close w = (c, [.closed]) := by
    rw [Client.close, Client.feed, h.connection]
    simp only [hover.step]
    rw [follow_silent rfl, ← h.connection]
    rfl
  rw [hclose]
  exact ⟨rfl, fun x hx => List.mem_singleton.mp hx⟩

theorem Past.acknowledged_iff (config : Config) (p : Past) :
    Acknowledged config (some p) ↔ ∃ a, p.decided? config = some (.accept a) := by
  rw [← Past.completed_iff]
  simp [Acknowledged]

/-- **The gate goes by the past of the latest connection.** -/
theorem Tracks.gate {config : Config} {c : Client} {p : Past} (h : Tracks config c p) (hc : c.waiting = false) :
    Gate config c (some p) := by
  have hphase := h.phase_eq
  have hinfo := h.info_eq
  have hwaiting := h.waiting
  have hkept := h.kept
  have hstanding := p.standing config
  have hacknowledged := p.acknowledged_iff config
  generalize p.decided? config = d at hinfo hwaiting hkept hstanding hacknowledged
  cases hstanding with
  | undecided =>
    rw [hc] at hwaiting
    cases hwaiting
  | failed hover hp =>
    refine .shut .notEstablished ?_ ?_ (.inr ⟨rfl, by simp [hacknowledged]⟩) (h.close_over hover)
    · rw [hphase]
      exact hover.unestablished
    · rcases hover.phase with hp | hp
      · rw [Client.gate, hphase, hp]
      · rw [Client.gate, hphase, hp, hinfo]
        rfl
  | @accepted a ha =>
    refine .opened ?_ ?_
    · rw [hphase, ha.published]
    · rw [Client.gate, hphase, ha.published, h.connection]
      rfl
  | @left a hover hp =>
    refine .shut .connectionClosed ?_ ?_ (.inl ⟨rfl, hacknowledged.mpr ⟨a, rfl⟩⟩) (h.close_over hover)
    · rw [hphase]
      exact hover.unestablished
    · rw [Client.gate, hphase, hp, hinfo]
      rfl
  | abandoned => exact absurd rfl hkept

theorem Knows.gate {config : Config} {c : Client} {past : Option Past} (h : Knows config c past) (hc : c.waiting = false) :
    Gate config c past := by
  cases past with
  | none =>
    cases h
    refine .shut .notEstablished ?_ rfl (.inr ⟨rfl, ?_⟩) fun w => ⟨rfl, ?_⟩
    · intro hp
      cases hp
    · rintro ⟨p, hp, -⟩
      cases hp
    · intro x hx
      cases hx
  | some p => exact Tracks.gate h hc

/-! ## Histories -/

theorem phase_of_gate {c : Client} (h : c.gate = .ok ()) : c.phase = .established := by
  unfold Client.gate at h
  split at h
  · assumption
  · split at h <;> cases h
  · cases h

theorem Knows.acknowledged {config : Config} {c : Client} {past : Option Past} (h : Knows config c past)
    (hp : c.phase = .established) : Acknowledged config past := by
  cases past with
  | none =>
    cases h
    cases hp
  | some p =>
    rw [Tracks.phase_eq h] at hp
    exact ⟨p, rfl, p.events, List.prefix_rfl, hp⟩

theorem Acknowledged.later {config : Config} {past : Option Past} (h : Acknowledged config past) (w : Circumstances)
    (e : Event) : Acknowledged config (past.map fun p => p.later w e) := by
  obtain ⟨p, hp, hcompleted⟩ := h
  cases hp
  exact ⟨p.later w e, rfl, hcompleted.later w e⟩

/-- **A client knows all along how the handshake of its latest connection ended**, and only a connection that was
established is handed anything. -/
theorem History.known {config : Config} {c : Client} {past : Option Past} {queue : List Event}
    (h : History config c past queue) :
    Knows config c past ∧ ∀ e ∈ queue, e.isWish = true ∧ Acknowledged config past := by
  induction h with
  | new => exact ⟨rfl, fun e he => absurd he List.not_mem_nil⟩
  | dialled w outcome _ _ ih => exact ⟨ih.1.dial w outcome, fun e he => absurd he List.not_mem_nil⟩
  | closed w _ _ ih =>
    exact ⟨ih.1.feed w (fun hgone => by cases hgone), fun e he => absurd he List.not_mem_nil⟩
  | @outside _ _ _ w e _ he ih =>
    refine ⟨ih.1.feed w ?_, fun x hx => ⟨(ih.2 x hx).1, (ih.2 x hx).2.later w e⟩⟩
    rintro rfl
    cases he
  | handed _ hgate he ih =>
    refine ⟨ih.1, fun x hx => ?_⟩
    rcases List.mem_append.mp hx with hold | hnew
    · exact ih.2 x hold
    · cases List.mem_singleton.mp hnew
      exact ⟨he, ih.1.acknowledged (phase_of_gate hgate)⟩
  | @taken _ _ _ e w _ ih =>
    refine ⟨ih.1.feed w ?_, fun x hx => ?_⟩
    · rintro rfl
      cases (ih.2 _ List.mem_cons_self).1
    · obtain ⟨hwish, hyes⟩ := ih.2 x (List.mem_cons_of_mem e hx)
      exact ⟨hwish, hyes.later w e⟩

/-- Nothing comes too early for a connection whose handshake was completed. -/
theorem Knows.never_early {config : Config} {c : Client} {past : Option Past} (h : Knows config c past)
    (hyes : Acknowledged config past) {w : Circumstances} (hw : w.writeFault ≠ some .notEstablished) (e : Event) :
    .notEstablished ∉ failures (c.feed w e).2 := by
  obtain ⟨p, hp, hcompleted⟩ := hyes
  cases hp
  obtain ⟨a, ha⟩ := Past.completed_iff.mp hcompleted
  have hstanding := p.standing config
  have hfeed : (c.feed w e).2 = ((p.link config).step w e).2 := by rw [Client.feed, Tracks.connection h]
  rw [ha] at hstanding
  rw [hfeed, ← failures_news]
  refine (Connection.turn_step (Connection.life_sound config p.opening p.events) w e).never_early ?_ hw
  cases hstanding with
  | accepted ha => exact fun hwaiting => hwaiting.not_established ha
  | left hover => exact hover.not_waiting

/-- **The gate of a client.** Whatever has happened to a client and its connections, as long as every caller that opened
one has heard how that ended: a request and a sign of life are handed to the latest connection if that is established, and
only then. Else they fail at once, and nothing is sent: because the connection is closed if the latest connection that was
started had completed its handshake, and in all other cases because there is none; and closing changes nothing. Whatever
was handed to a connection is never told that it comes too early when it is taken up, as long as the stream does not say
so itself. -/
theorem gate_keeps_out {config : Config} {c : Client} {past : Option Past} {queue : List Event}
    (h : History config c past queue) (hc : c.waiting = false) :
    (c.phase ≠ .established → ∃ why : Failure,
      (why = .connectionClosed ∧ Acknowledged config past ∨ why = .notEstablished ∧ ¬Acknowledged config past) ∧
      (∀ w caller action payload timeout,
        c.request w caller action payload timeout = (c, [.settle ⟨caller, .error why⟩])) ∧
      (∀ w caller, c.ping w caller = (c, [.pinged caller (.error why)])) ∧
      ∀ w, (c.close w).1 = c ∧ ∀ x ∈ (c.close w).2, x = .closed) ∧
    (c.phase = .established → c.gate = .ok () ∧
      (∀ w caller action payload timeout,
        c.request w caller action payload timeout = c.feed w (.request caller action payload timeout)) ∧
      (∀ w caller, c.ping w caller = c.feed w (.ping caller)) ∧
      ∀ w e, w.writeFault ≠ some .notEstablished → .notEstablished ∉ failures (c.feed w e).2) ∧
    ∀ w, ∀ e ∈ queue, w.writeFault ≠ some .notEstablished → .notEstablished ∉ failures (c.feed w e).2 := by
  obtain ⟨hknows, hqueue⟩ := h.known
  refine ⟨?_, ?_, ?_⟩
  · intro hp
    cases hknows.gate hc with
    | opened hopen => exact absurd hopen hp
    | shut why _ hgate hwhy hclose =>
      refine ⟨why, hwhy, ?_, ?_, hclose⟩
      · intro w caller action payload timeout
        rw [request, hgate]
      · intro w caller
        rw [ping, hgate]
  · intro hp
    cases hknows.gate hc with
    | opened _ hgate =>
      refine ⟨hgate, ?_, ?_, fun w e hw => hknows.never_early (hknows.acknowledged hp) hw e⟩
      · intro w caller action payload timeout
        rw [request, hgate]
      · intro w caller
        rw [ping, hgate]
    | shut _ hshut => exact absurd hp hshut
  · intro w e he hw
    exact hknows.never_early (hqueue e he).2 hw e

def welcome : Event :=
  .frame (Bytes.ofText "\x7b\"type\":\"handshake_ack\",\"body\":\x7b\"connectionId\":\"c\"\x7d\x7d")

/-- The server has accepted a client with this configuration and has left it, and it does not get another stream. -/
def bereft (config : Config) : Client :=
  let opened := (dial { config := config } (Connection.atMilliseconds 0) .opened).1
  let accepted := (opened.feed (Connection.atMilliseconds 0) welcome).1
  let left := (accepted.feed (Connection.atMilliseconds 10) .ended).1
  (left.dial (Connection.atMilliseconds 20) .timedOut).1

def briefPast : Past where
  opening := Connection.atMilliseconds 0
  events :=
    [(Connection.atMilliseconds 0, welcome), (Connection.atMilliseconds 10, .ended),
      (Connection.atMilliseconds 20, .close)]

/-- Its requests fail because its connection is closed. -/
theorem bereft_is_closed :
    (bereft (.default 0)).waiting = false ∧ (bereft (.default 0)).phase ≠ .established ∧
      ∀ w caller, (bereft (.default 0)).ping w caller =
        (bereft (.default 0), [.pinged caller (.error .connectionClosed)]) := by
  have hvalid : (Config.default 0).validate = .ok () := by decide +kernel
  have hopened : dialled (.default 0) (Connection.atMilliseconds 0) .opened none =
      some ⟨Connection.atMilliseconds 0, []⟩ := by
    rw [dialled, hvalid]
    rfl
  have hnew : History (.default 0) { config := .default 0 } none [] := .new
  have hfirst := hnew.dialled (Connection.atMilliseconds 0) .opened rfl
  rw [hopened] at hfirst
  have haccepted := hfirst.outside (Connection.atMilliseconds 0) (e := welcome) rfl
  have hleft := haccepted.outside (Connection.atMilliseconds 10) (e := .ended) rfl
  have hlast := hleft.dialled (Connection.atMilliseconds 20) .timedOut (by decide +kernel)
  rw [dialled, hvalid] at hlast
  have hhistory : History (.default 0) (bereft (.default 0)) (some briefPast) [] := by
    unfold bereft
    exact hlast
  have hcompleted : briefPast.Completed (.default 0) :=
    ⟨[(Connection.atMilliseconds 0, welcome)], List.prefix_append _ _, by decide +kernel⟩
  have hwaiting : (bereft (.default 0)).waiting = false := by decide +kernel
  have hphase : (bereft (.default 0)).phase ≠ .established := by decide +kernel
  obtain ⟨why, hwhy, -, hping, -⟩ := (gate_keeps_out hhistory hwaiting).1 hphase
  rcases hwhy with ⟨rfl, -⟩ | ⟨-, hnot⟩
  · exact ⟨hwaiting, hphase, hping⟩
  · exact absurd ⟨briefPast, rfl, hcompleted⟩ hnot

end Client
end TransitLink
