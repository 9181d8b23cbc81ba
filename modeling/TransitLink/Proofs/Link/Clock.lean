import TransitLink.Proofs.Link.Phases
import TransitLink.Proofs.Link.Settlement

/-!
# Timers and the clock

* `Granule` : how finely timers tell the time. `Granule.ceil` : when a timer fires that is set to some time.
* `IsSet` : the timers of a connection; `nextTimer?_eq_some_iff` : the next one is the first of them.
* `Ready`, `Clocked` : lives on a clock that stands still while something happens and stops at every timer.
* `Turn.leaves_table` : a request leaves the table when it is answered, when its time is over, or when the connection
  ends. `Turn.times_out` : it is told that no response came only if its time is over.
* `Clocked.punctual` : the clock never passes the deadline of a pending request or of an open handshake.
* `timers_keep_time` : every request has its time, no less and hardly more, whatever else is in flight.
-/

namespace TransitLink

set_option autoImplicit false

/-! ## Granules -/

/-- How finely timers tell the time: they fire at whole multiples of a granule. -/
structure Granule where
  width : Nat
  pos : 0 < width

namespace Granule

def millisecond : Granule := ⟨1000000, by decide⟩

/-- When a timer fires that is set to this time: at the next multiple. -/
def ceil (g : Granule) (t : Nat) : Nat := (t + (g.width - 1)) / g.width * g.width

theorem ceil_add_mod (g : Granule) (t : Nat) : g.ceil t + (t + (g.width - 1)) % g.width = t + (g.width - 1) :=
  Nat.div_add_mod' _ _

theorem le_ceil (g : Granule) (t : Nat) : t ≤ g.ceil t := by
  have hsum := g.ceil_add_mod t
  have hmod := Nat.mod_lt (t + (g.width - 1)) g.pos
  omega

theorem ceil_lt (g : Granule) (t : Nat) : g.ceil t < t + g.width := by
  have hsum := g.ceil_add_mod t
  have hpos := g.pos
  omega

theorem ceil_mono (g : Granule) {s t : Nat} (h : s ≤ t) : g.ceil s ≤ g.ceil t :=
  Nat.mul_le_mul_right _ (Nat.div_le_div_right (Nat.add_le_add_right h _))

end Granule

namespace Connection

/-! ## Timers -/

theorem le_deadlineAfter (now : Time) (span : Duration) : now ≤ deadlineAfter now span := by
  unfold deadlineAfter
  split <;> exact Nat.le_add_right _ _

inductive IsSet (c : Connection) : Time → Prop where
  | handshake : c.handshake.phase.isPending = true → IsSet c c.handshakeDeadline
  | request {d : Time} : c.pending.nextDeadline? = some d → IsSet c d
  | ping {k : Keepalive} : c.keepalive = some k → IsSet c k.next

theorem mem_timers_iff {c : Connection} {t : Time} :
    t ∈ [if c.handshake.phase.isPending then some c.handshakeDeadline else none, c.pending.nextDeadline?,
      c.keepalive.map Keepalive.next].filterMap id ↔ c.IsSet t := by
  rw [List.mem_filterMap]
  constructor
  · rintro ⟨x, hx, rfl⟩
    simp only [List.mem_cons, List.not_mem_nil, or_false] at hx
    rcases hx with hx | hx | hx
    · by_cases hp : c.handshake.phase.isPending = true
      · rw [if_pos hp, Option.some.injEq] at hx
        subst hx
        exact .handshake hp
      · rw [if_neg hp] at hx
        cases hx
    · exact .request hx.symm
    · obtain ⟨k, hk, rfl⟩ := Option.map_eq_some_iff.mp hx.symm
      exact .ping hk
  · intro h
    cases h with
    | handshake hp => exact ⟨some c.handshakeDeadline, by rw [if_pos hp]; exact List.mem_cons_self, rfl⟩
    | request hd => exact ⟨some t, by rw [hd]; simp, rfl⟩
    | @ping k hk => exact ⟨some k.next, by rw [hk]; simp, rfl⟩

/-- The next timer is the first of those that are set. -/
theorem nextTimer?_eq_some_iff {c : Connection} (hr : c.stopped = false) {t : Time} :
    c.nextTimer? = some t ↔ c.IsSet t ∧ ∀ t', c.IsSet t' → t ≤ t' := by
  rw [nextTimer?, hr, if_neg Bool.false_ne_true, List.min?_eq_some_iff, mem_timers_iff]
  simp only [mem_timers_iff]

theorem nextTimer?_le {c : Connection} (hr : c.stopped = false) {t : Time} (h : c.IsSet t) :
    ∃ first, c.nextTimer? = some first ∧ first ≤ t := by
  cases hn : c.nextTimer? with
  | none =>
    rw [nextTimer?, hr, if_neg Bool.false_ne_true, List.min?_eq_none_iff] at hn
    have hmem := mem_timers_iff.mpr h
    rw [hn] at hmem
    cases hmem
  | some first => exact ⟨first, rfl, ((nextTimer?_eq_some_iff hr).mp hn).2 t h⟩

/-! ## Lives on a clock -/

/-- Whether an event can happen now. A timer fires when it is set and its time has come; callers and the server act when
they like. -/
def Ready (g : Granule) (c : Connection) (now : Time) : Event → Prop
  | .handshakeDue => c.handshake.phase.isPending = true ∧ g.ceil c.handshakeDeadline ≤ now
  | .requestDue => ∃ d, c.pending.nextDeadline? = some d ∧ g.ceil d ≤ now
  | .pingDue => ∃ k, c.keepalive = some k ∧ g.ceil k.next ≤ now
  | _ => True

/-- The events of a life and the clock after them. The clock stands still while something happens, writing included, and
goes on at most to the first timer that is set, so it waits there until that timer has fired. It may also stop earlier,
and callers and the server may act at any time: lives in which it goes on only when nothing else can happen, and then up
to the timer, are among these. -/
inductive Clocked (g : Granule) (config : Config) (w₀ : Circumstances) : List (Circumstances × Event) → Time → Prop where
  | opened : Clocked g config w₀ [] w₀.now
  | waited {es : List (Circumstances × Event)} {now later : Time} : Clocked g config w₀ es now → now ≤ later →
      (∀ t, (life config w₀ es).1.nextTimer? = some t → later ≤ g.ceil t) → Clocked g config w₀ es later
  | happened {es : List (Circumstances × Event)} {w : Circumstances} {e : Event} : Clocked g config w₀ es w.now →
      Ready g (life config w₀ es).1 w.now e → Clocked g config w₀ (es ++ [(w, e)]) w.now

theorem Clocked.wait_for {g : Granule} {config : Config} {w₀ : Circumstances} {es : List (Circumstances × Event)}
    {now later t : Time} (h : Clocked g config w₀ es now) (ht : (life config w₀ es).1.nextTimer? = some t)
    (hnow : now ≤ later) (hlater : later ≤ g.ceil t) : Clocked g config w₀ es later := by
  refine .waited h hnow ?_
  intro t' ht'
  cases ht.symm.trans ht'
  exact hlater

/-- What writing meets, if anything, is a fault of the stream. -/
def FromStream (w : Circumstances) : Prop := ∀ f, w.writeFault = some f → ∃ reason, f = .transport reason

/-! ## Turns -/

theorem Turn.handshakeDeadline_eq {c c' : Connection} {w : Circumstances} {e : Event} {es : List Effect}
    (h : Turn c w e c' es) : c'.handshakeDeadline = c.handshakeDeadline := by
  cases h <;> rfl

/-- A handshake that is open after a turn was open before it. -/
theorem Turn.waiting_before {c c' : Connection} {w : Circumstances} {e : Event} {es : List Effect}
    (h : Turn c w e c' es) (hc : c.Sound) (hw : c'.Waiting) : c.Waiting := by
  cases hc with
  | waiting hc => exact hc
  | established hc =>
    rcases h.of_established hc with ha | ⟨ho, -⟩
    · exact absurd ha hw.not_established
    · exact absurd hw ho.not_waiting
  | ended hc =>
    rw [(h.of_over hc).1] at hw
    exact absurd hw hc.not_waiting

/-- **Why a request leaves the table:** the connection ends, a response to it arrives, or its time is over. -/
theorem Turn.leaves_table {c c' : Connection} {w : Circumstances} {e : Event} {es : List Effect} (h : Turn c w e c' es)
    {p : Pending} (hp : p ∈ c.pending) : p ∈ c'.pending ∨ c'.stopped = true ∨
      (∃ body r, e = .frame body ∧ Inbound.decode body = .ok (.response r) ∧ r.requestId = p.id) ∨
      e = .requestDue ∧ p.deadline ≤ w.now := by
  cases h with
  | failed => exact .inr (.inl rfl)
  | abandoned => exact .inr (.inl rfl)
  | uncalled => exact .inr (.inl rfl)
  | unpinged => exact .inr (.inl rfl)
  | unbeat => exact .inr (.inl rfl)
  | parted => exact .inr (.inl rfl)
  | called => exact .inl (List.mem_append_left _ hp)
  | @answered _ body r q _ hd hq hid =>
    by_cases hsame : p.id = q.id
    · exact .inr (.inr (.inl ⟨body, r, rfl, hd, hid.symm.trans hsame.symm⟩))
    · exact .inl (PendingTable.mem_without.mpr ⟨hp, hsame⟩)
  | expired =>
    by_cases hdue : p.deadline ≤ w.now
    · exact .inr (.inr (.inr ⟨rfl, hdue⟩))
    · exact .inl (List.mem_filter.mpr ⟨hp, decide_eq_true hdue⟩)
  | _ => exact .inl hp

/-- When the clock is looked at, only requests whose time is not over stay. -/
theorem Turn.pending_after_due {c c' : Connection} {w : Circumstances} {es : List Effect}
    (h : Turn c w .requestDue c' es) {p : Pending} (hp : p ∈ c'.pending) : w.now < p.deadline := by
  cases h with
  | refused h =>
    rw [h.pending] at hp
    cases hp
  | kept h =>
    rw [h.pending] at hp
    cases hp
  | failed => cases hp
  | expired =>
    have hlate := (List.mem_filter.mp hp).2
    rw [decide_eq_true_eq] at hlate
    exact Nat.lt_of_not_le hlate
  | parted _ he => cases he
  | unmoved _ hidle => cases hidle

theorem encode_fault {body : Bytes} {f : Failure} (h : Frame.encode body = .error f) :
    ∃ reason, f = .protocolViolation reason := by
  unfold Frame.encode at h
  split at h
  · cases h
  · cases h
    exact ⟨_, rfl⟩

/-- A request is told that no response came only when its time is over. -/
theorem Turn.times_out {c c' : Connection} {w : Circumstances} {e : Event} {es : List Effect} (h : Turn c w e c' es)
    (hw : FromStream w) {caller : Nat} {action id : String}
    (hs : ⟨caller, .error (.timeout action id)⟩ ∈ settlements es) :
    ∃ p ∈ c.pending, p.caller = caller ∧ p.action = action ∧ p.id = id ∧ p.deadline ≤ w.now := by
  cases h.grounds hs with
  | unsent _ _ hfault =>
    rcases hfault with hencode | hwrite
    · obtain ⟨reason, hreason⟩ := encode_fault hencode
      cases hreason
    · obtain ⟨reason, hreason⟩ := hw _ hwrite
      cases hreason
  | @timedOut p hp hdue => exact ⟨p, hp, rfl, rfl, rfl, hdue⟩

/-! ## The clock is never late -/

theorem open_handshakeDeadline (config : Config) (w : Circumstances) :
    (Connection.open config w).1.handshakeDeadline = deadlineAfter w.now config.handshakeTimeout := by
  unfold «open»
  simp only
  split <;> rfl

theorem life_handshakeDeadline (config : Config) (w₀ : Circumstances) (es : List (Circumstances × Event)) :
    (life config w₀ es).1.handshakeDeadline = deadlineAfter w₀.now config.handshakeTimeout := by
  induction es using List.reverseRecOn with
  | nil => rw [life_nil, open_handshakeDeadline]
  | append_singleton es x ih => rw [(life_turn config w₀ es x.1 x.2).handshakeDeadline_eq, ih]

/-- A clock that goes on to the first timer at most passes no timer. -/
theorem le_ceil_of_isSet {g : Granule} {c : Connection} {later t : Time}
    (h : ∀ first, c.nextTimer? = some first → later ≤ g.ceil first) (hr : c.stopped = false) (ht : c.IsSet t) :
    later ≤ g.ceil t := by
  obtain ⟨first, hfirst, hle⟩ := nextTimer?_le hr ht
  exact Nat.le_trans (h first hfirst) (g.ceil_mono hle)

/-- **The clock never passes a deadline that something still waits for.** -/
theorem Clocked.punctual {g : Granule} {config : Config} {w₀ : Circumstances} {es : List (Circumstances × Event)}
    {now : Time} (h : Clocked g config w₀ es now) :
    (∀ p ∈ (life config w₀ es).1.pending, now ≤ g.ceil p.deadline) ∧
      ((life config w₀ es).1.Waiting → now ≤ g.ceil (life config w₀ es).1.handshakeDeadline) := by
  induction h with
  | opened =>
    rw [life_nil, open_pending, open_handshakeDeadline]
    refine ⟨fun p hp => absurd hp List.not_mem_nil, fun _ => ?_⟩
    have hlate := le_deadlineAfter w₀.now config.handshakeTimeout
    exact Nat.le_trans hlate (g.le_ceil _)
  | @waited es now later _ _ hlater _ =>
    refine ⟨?_, ?_⟩
    · intro p hp
      -- once the connection has stopped nothing is pending, so its timers count
      have hr : (life config w₀ es).1.stopped = false := by
        apply (life_sound config w₀ es).running_of_not_over
        intro ho
        rw [ho.pending] at hp
        cases hp
      obtain ⟨d, hd, hle⟩ := PendingTable.nextDeadline?_le hp
      have hfires : later ≤ g.ceil d := le_ceil_of_isSet hlater hr (.request hd)
      exact Nat.le_trans hfires (g.ceil_mono hle)
    · intro hw
      have hpending : (life config w₀ es).1.handshake.phase.isPending = true := by
        rw [hw.phase]
        rfl
      exact le_ceil_of_isSet hlater hw.running (.handshake hpending)
  | @happened es w e _ _ ih =>
    have hturn := life_turn config w₀ es w e
    refine ⟨?_, ?_⟩
    · intro p hp
      rcases hturn.mem_pending hp with hold | ⟨_, timeout, _, _, hdeadline, _⟩
      · exact ih.1 p hold
      -- a request made just now has its whole time ahead
      · have hlate := le_deadlineAfter w.now timeout
        rw [hdeadline]
        exact Nat.le_trans hlate (g.le_ceil _)
    · intro hw
      rw [hturn.handshakeDeadline_eq]
      exact ih.2 (hturn.waiting_before (life_sound config w₀ es) hw)

/-- The timer at which the clock stops can fire. -/
theorem ready_of_isSet {g : Granule} {c : Connection} {now t : Time} (h : c.IsSet t) (hdue : g.ceil t ≤ now) :
    Ready g c now .handshakeDue ∨ Ready g c now .requestDue ∨ Ready g c now .pingDue := by
  cases h with
  | handshake hp => exact .inl ⟨hp, hdue⟩
  | request hd => exact .inr (.inl ⟨t, hd, hdue⟩)
  | @ping k hk => exact .inr (.inr ⟨k, hk, hdue⟩)

theorem ready_of_due {g : Granule} {c : Connection} {now : Time} {p : Pending} (hp : p ∈ c.pending)
    (hdue : g.ceil p.deadline ≤ now) : Ready g c now .requestDue := by
  obtain ⟨d, hd, hle⟩ := PendingTable.nextDeadline?_le hp
  exact ⟨d, hd, Nat.le_trans (g.ceil_mono hle) hdue⟩

/-- **Timers keep time.** Whatever happens to a connection on a clock, and however many requests are in flight: the clock
is never later than the time at which the timer of a pending request or of the open handshake fires, less than one granule
after its deadline, and this deadline is the one that was set when it began; no request is told that no response came
before its own deadline; no event takes a pending request out of the table unless it ends the connection, answers that very
request, or finds its time over, and those that stay are unchanged; the timer of a pending request can fire as soon as its
time has come, and when it fires, every request whose time is over ends; and wherever the clock has to stop, some timer can
fire. -/
theorem timers_keep_time (g : Granule) (config : Config) (w₀ : Circumstances) (es : List (Circumstances × Event))
    (now : Time) (h : Clocked g config w₀ es now) :
    (∀ p ∈ (life config w₀ es).1.pending,
      Asked config w₀ es p ∧ now ≤ g.ceil p.deadline ∧ g.ceil p.deadline < p.deadline + g.width) ∧
    ((life config w₀ es).1.handshake.phase.isPending = true →
      (life config w₀ es).1.handshakeDeadline = deadlineAfter w₀.now config.handshakeTimeout ∧
      now ≤ g.ceil (life config w₀ es).1.handshakeDeadline) ∧
    (∀ w e caller action id, w.now = now → FromStream w →
      ⟨caller, .error (.timeout action id)⟩ ∈ settlements ((life config w₀ es).1.step w e).2 →
      ∃ p ∈ (life config w₀ es).1.pending, p.caller = caller ∧ p.action = action ∧ p.id = id ∧ p.deadline ≤ now) ∧
    (∀ (w : Circumstances) e, w.now = now → ∀ p ∈ (life config w₀ es).1.pending,
      p ∈ ((life config w₀ es).1.step w e).1.pending ∨ ((life config w₀ es).1.step w e).1.stopped = true ∨
      (∃ body r, e = .frame body ∧ Inbound.decode body = .ok (.response r) ∧ r.requestId = p.id) ∨
      e = .requestDue ∧ p.deadline ≤ now) ∧
    (∀ p ∈ (life config w₀ es).1.pending, g.ceil p.deadline ≤ now →
      Ready g (life config w₀ es).1 now .requestDue ∧ ∀ w : Circumstances, w.now = now →
        ⟨p.caller, .error (.timeout p.action p.id)⟩ ∈ settlements ((life config w₀ es).1.step w .requestDue).2 ∧
        ∀ q ∈ ((life config w₀ es).1.step w .requestDue).1.pending, now < q.deadline) ∧
    (∀ t, (life config w₀ es).1.nextTimer? = some t → g.ceil t ≤ now →
      Ready g (life config w₀ es).1 now .handshakeDue ∨ Ready g (life config w₀ es).1 now .requestDue ∨
      Ready g (life config w₀ es).1 now .pingDue) := by
  have hsound := life_sound config w₀ es
  obtain ⟨hrequests, hhandshake⟩ := h.punctual
  refine ⟨?_, ?_, ?_, ?_, ?_, ?_⟩
  · intro p hp
    exact ⟨pending_asked hp, hrequests p hp, g.ceil_lt _⟩
  · intro hp
    exact ⟨life_handshakeDeadline config w₀ es, hhandshake (hsound.waiting_of_isPending hp)⟩
  · rintro w e caller action id rfl hw hs
    rw [← settlements_news] at hs
    exact (turn_step hsound w e).times_out hw hs
  · rintro w e rfl p hp
    exact (turn_step hsound w e).leaves_table hp
  · intro p hp hdue
    refine ⟨ready_of_due hp hdue, ?_⟩
    rintro w rfl
    have hturn := turn_step hsound w .requestDue
    refine ⟨?_, fun q hq => hturn.pending_after_due hq⟩
    rw [← settlements_news]
    exact hturn.expires hp (Nat.le_trans (g.le_ceil _) hdue)
  · intro t ht hdue
    have hr : (life config w₀ es).1.stopped = false := by
      apply hsound.running_of_not_over
      intro ho
      rw [ho.nextTimer?] at ht
      cases ht
    exact ready_of_isSet ((nextTimer?_eq_some_iff hr).mp ht).1 hdue

/-- Of two requests the second is due first: after 40 ms it ends, and the first goes on. -/
theorem second_request_is_due_first :
    Clocked Granule.millisecond (.default 0) (atMilliseconds 0) twoRequests 40000000 ∧
      ⟨1, .error (.timeout "shut" "000000000001")⟩ ∈
        settlements ((life (.default 0) (atMilliseconds 0) twoRequests).1.step (atMilliseconds 40) .requestDue).2 ∧
      ∀ q ∈ ((life (.default 0) (atMilliseconds 0) twoRequests).1.step (atMilliseconds 40) .requestDue).1.pending,
        40000000 < q.deadline := by
  have haccepted : Clocked Granule.millisecond (.default 0) (atMilliseconds 0) (twoRequests.take 1) 0 :=
    @Clocked.happened _ _ _ [] (atMilliseconds 0) _ .opened trivial
  have hfirst : Clocked Granule.millisecond (.default 0) (atMilliseconds 0) (twoRequests.take 2) 0 :=
    @Clocked.happened _ _ _ (twoRequests.take 1) (atMilliseconds 0) _ haccepted trivial
  have hmeanwhile : Clocked Granule.millisecond (.default 0) (atMilliseconds 0) (twoRequests.take 2) 10000000 := by
    have hfires : (life (.default 0) (atMilliseconds 0) (twoRequests.take 2)).1.nextTimer? = some 50000000 := by
      decide +kernel
    exact hfirst.wait_for hfires (by decide) (by decide)
  have hsecond : Clocked Granule.millisecond (.default 0) (atMilliseconds 0) twoRequests 10000000 :=
    @Clocked.happened _ _ _ (twoRequests.take 2) (atMilliseconds 10) _ hmeanwhile trivial
  have hdue : Clocked Granule.millisecond (.default 0) (atMilliseconds 0) twoRequests 40000000 := by
    have hfires : (life (.default 0) (atMilliseconds 0) twoRequests).1.nextTimer? = some 40000000 := by decide +kernel
    exact hsecond.wait_for hfires (by decide) (by decide)
  have hpending : ⟨"000000000001", "shut", 40000000, 1⟩ ∈
      (life (.default 0) (atMilliseconds 0) twoRequests).1.pending := by
    decide +kernel
  obtain ⟨-, -, -, -, hfires, -⟩ := timers_keep_time _ _ _ _ _ hdue
  obtain ⟨htold, hleft⟩ := (hfires _ hpending (by decide)).2 (atMilliseconds 40) rfl
  exact ⟨hdue, htold, hleft⟩

end Connection
end TransitLink
