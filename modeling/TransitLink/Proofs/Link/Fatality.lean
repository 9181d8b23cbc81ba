import TransitLink.Frame.Stream
import TransitLink.Proofs.Link.Clock

/-!
# Fatal failures

* `failures` : the failures that callers are told, whatever they wait for.
* `FromWriter` : what writing meets comes from writing a frame to a stream, so it is a fault of the stream
  (`fromStream_of_fromWriter`).
* `Heeds` : a connection stops at a fatal failure, and goes on as it was at any other.
* `Turn.heeds` : every turn heeds the failures that it tells.
* `failures_are_heeded` : so does every connection, as long as no frame is too long.
-/

namespace TransitLink

set_option autoImplicit false

/-! ## Failures that are told -/

/-- The failures that callers are told: those of a request, of a sign of life or of the handshake. -/
def failures (es : List Effect) : List Failure :=
  es.filterMap fun
    | .settle ⟨_, .error f⟩ => some f
    | .pinged _ (.error f) => some f
    | .connected (.error f) => some f
    | _ => none

theorem failures_news (es : List Effect) : failures (news es) = failures es := filterMap_news (fun _ => rfl) es

theorem failures_append (es fs : List Effect) : failures (es ++ fs) = failures es ++ failures fs :=
  List.filterMap_append

theorem writeAll_fault {os rest : List WriteOutcome} {bs taken : Bytes} {f : Failure}
    (h : writeAll os bs = (taken, rest, some f)) : ∃ reason, f = .transport reason := by
  induction os generalizing bs taken with
  | nil => cases h
  | cons o os ih =>
    unfold writeAll at h
    split at h
    · cases h
    · split at h
      · cases h
        exact ⟨_, rfl⟩
      · cases h
        exact ⟨_, rfl⟩
      · rename_i n _
        cases hlater : writeAll os (bs.drop n) with
        | mk later x =>
          obtain ⟨rest', fault⟩ := x
          rw [hlater] at h
          cases h
          exact ih hlater

/-- Writing a frame that is not too long meets only faults of the stream. -/
theorem writeFrame_fault {os : List WriteOutcome} {flush : Option String} {body : Bytes} {f : Failure}
    (hbody : body.length < 2 ^ 32) (h : (writeFrame os flush body).2.2.2 = .error f) :
    ∃ reason, f = .transport reason := by
  have hframe : Frame.encode body = .ok (Bytes.toBigEndian Frame.headerLength body.length ++ body) := if_pos hbody
  simp only [writeFrame, hframe] at h
  split at h
  · rename_i hall
    cases h
    exact writeAll_fault hall
  · cases flush with
    | none => cases h
    | some reason =>
      cases h
      exact ⟨_, rfl⟩

namespace Connection

/-- What writing meets, if anything, is what some stream makes of a frame that is not too long. -/
def FromWriter (w : Circumstances) : Prop :=
  ∀ f, w.writeFault = some f →
    ∃ outcomes flush body, body.length < 2 ^ 32 ∧ (writeFrame outcomes flush body).2.2.2 = .error f

theorem fromStream_of_fromWriter {w : Circumstances} (h : FromWriter w) : FromStream w := by
  intro f hf
  obtain ⟨outcomes, flush, body, hbody, hfault⟩ := h f hf
  exact writeFrame_fault hbody hfault

/-! ## Failures and the connection -/

/-- A connection stops at a fatal failure, and goes on as it was at any other. -/
structure Heeds (c c' : Connection) (f : Failure) : Prop where
  stops : f.isFatal = true → c'.stopped = true
  continues : f.isFatal = false →
    c'.stopped = false ∧ c'.handshake = c.handshake ∧ c'.published = c.published ∧ c'.keepalive = c.keepalive

theorem Heeds.of_fatal {c c' : Connection} {f : Failure} (hf : f.isFatal = true) (hs : c'.stopped = true) :
    Heeds c c' f where
  stops _ := hs
  continues h := by
    rw [hf] at h
    cases h

theorem Heeds.of_kept {c c' : Connection} {f : Failure} (hf : f.isFatal = false) (hr : c'.stopped = false)
    (hh : c'.handshake = c.handshake) (hp : c'.published = c.published) (hk : c'.keepalive = c.keepalive) :
    Heeds c c' f where
  stops h := by
    rw [hf] at h
    cases h
  continues _ := ⟨hr, hh, hp, hk⟩

theorem failures_settles {α : Type} (f : α → Nat) (g : α → Failure) (xs : List α) :
    failures (xs.map fun x => .settle ⟨f x, .error (g x)⟩) = xs.map g := by
  rw [failures, List.filterMap_map, ← List.filterMap_eq_map]
  rfl

theorem failures_closings {t : PendingTable} {f : Failure} (h : f ∈ failures (closings t)) : f = .connectionClosed := by
  rw [closings, failures_settles] at h
  obtain ⟨p, -, rfl⟩ := List.mem_map.mp h
  rfl

theorem failures_farewell {t : PendingTable} {e : Event} {f : Failure} (h : f ∈ failures (farewell t e)) :
    f = .connectionClosed := by
  refine failures_closings (t := t) ?_
  cases e with
  | close =>
    rw [failures, farewell, List.filterMap_append] at h
    exact (List.mem_append.mp h).resolve_right List.not_mem_nil
  | _ => exact h

/-- Requests that have waited long enough are told so. -/
theorem failures_timedOut {t : PendingTable} {f : Failure}
    (h : f ∈ failures (t.map fun p => .settle (PendingTable.timedOut p))) : ∃ p ∈ t, f = .timeout p.action p.id := by
  have htimes : f ∈ t.map fun p => Failure.timeout p.action p.id := by
    rw [← failures_settles Pending.caller]
    exact h
  obtain ⟨p, hp, rfl⟩ := List.mem_map.mp htimes
  exact ⟨p, hp, rfl⟩

theorem isFatal_of_decision {config : Config} {e : Event} {why : Failure} {p : Phase}
    (h : e.decision? config = some (.fail why p)) : why.isFatal = true := by
  cases e with
  | frame body =>
    simp only [Event.decision?] at h
    split at h
    · cases h
    · cases h
      rfl
    · cases h
  | ended =>
    cases h
    rfl
  | readFailed =>
    cases h
    rfl
  | handshakeDue =>
    cases h
    rfl
  | close =>
    cases h
    rfl
  | _ => cases h

/-- A frame that is not too long meets only faults of the stream, and these are fatal. -/
theorem isFatal_of_send {w : Circumstances} {x : Envelope} {why : Failure} (hw : FromStream w)
    (hx : x.toBytes.length < 2 ^ 32) (h : (send w x).2 = some why) : why.isFatal = true := by
  rcases send_fault h with hencode | hwrite
  · rw [Frame.encode, if_pos hx] at hencode
    cases hencode
  · obtain ⟨reason, rfl⟩ := hw why hwrite
    rfl

/-- **Every turn heeds the failures that it tells.** -/
theorem Turn.heeds {c c' : Connection} {w : Circumstances} {e : Event} {es : List Effect} (h : Turn c w e c' es)
    (hw : FromStream w) (hsmall : ∀ x ∈ envelopes es, x.toBytes.length < 2 ^ 32) {f : Failure} (hf : f ∈ failures es) :
    Heeds c c' f := by
  cases h with
  | refused h =>
    refine .of_fatal ?_ h.stopped
    cases e with
    | request =>
      cases List.mem_singleton.mp hf
      rfl
    | ping =>
      cases List.mem_singleton.mp hf
      rfl
    | _ => cases hf
  | unready h =>
    cases List.mem_singleton.mp hf
    exact .of_kept rfl h.running rfl rfl rfl
  | unreadyPing h =>
    cases List.mem_singleton.mp hf
    exact .of_kept rfl h.running rfl rfl rfl
  | failed h hd =>
    refine .of_fatal ?_ rfl
    rcases List.mem_cons.mp hf with rfl | hrest
    · exact isFatal_of_decision hd
    · rw [failures_farewell hrest]
      rfl
  | uncalled h hp hfault =>
    refine .of_fatal ?_ rfl
    rcases List.mem_cons.mp hf with rfl | hrest
    · exact isFatal_of_send hw (hsmall _ List.mem_cons_self) hfault
    · rw [failures_closings hrest]
      rfl
  | unpinged h hfault =>
    refine .of_fatal ?_ rfl
    rcases List.mem_cons.mp hf with rfl | hrest
    · exact isFatal_of_send hw (hsmall _ List.mem_cons_self) hfault
    · rw [failures_closings hrest]
      rfl
  | unbeat =>
    refine .of_fatal ?_ rfl
    rw [failures_closings hf]
    rfl
  | parted =>
    refine .of_fatal ?_ rfl
    rw [failures_farewell hf]
    rfl
  | expired h =>
    obtain ⟨p, -, rfl⟩ := failures_timedOut hf
    exact .of_kept rfl h.running rfl rfl rfl
  | _ => cases hf

/-- What is told at the opening is fatal, and the connection stops. -/
theorem open_heeds {config : Config} {w : Circumstances} {f : Failure}
    (hf : f ∈ failures (Connection.open config w).2) :
    f.isFatal = true ∧ (Connection.open config w).1.stopped = true := by
  rw [← failures_news] at hf
  cases hs : (send w (greeting config w)).2 with
  | none =>
    rw [(opened_of_sent hs).2] at hf
    cases hf
  | some why =>
    obtain ⟨hover, -, hn⟩ := opened_of_fault hs
    rw [hn] at hf
    cases List.mem_singleton.mp hf
    exact ⟨rfl, hover.stopped⟩

/-! ## Whole lives -/

/-- What is sent at some event of a life is sent in that life. -/
theorem envelopes_step_subset (config : Config) (w₀ : Circumstances) (before after : List (Circumstances × Event))
    (w : Circumstances) (e : Event) :
    envelopes ((life config w₀ before).1.step w e).2 ⊆ envelopes (life config w₀ (before ++ (w, e) :: after)).2 := by
  intro x hx
  rw [life_append, onward, run_cons, envelopes_append, envelopes_append]
  exact List.mem_append_right _ (List.mem_append_left _ hx)

theorem stopped_of_step {c : Connection} (h : c.Sound) (w : Circumstances) (e : Event)
    (hr : (c.step w e).1.stopped = false) : c.stopped = false := by
  apply h.running_of_not_over
  intro hover
  rw [hover.step, hover.stopped] at hr
  cases hr

/-- **Failures are heeded.** Whatever happens to a connection, in whatever order, as long as no frame is too long: whenever
a caller is told a failure, be it of a request, of a sign of life or of the handshake, the connection stops at that very
event if the failure is fatal, and otherwise goes on in the same phase, with the same acknowledgement and the same signs of
life. The same holds of the opening, where only fatal failures are told. So a connection that goes on has told none that is
fatal. -/
theorem failures_are_heeded (config : Config) (w₀ : Circumstances) (es : List (Circumstances × Event))
    (hw : ∀ x ∈ es, FromWriter x.1) (hsmall : ∀ x ∈ envelopes (life config w₀ es).2, x.toBytes.length < 2 ^ 32) :
    (∀ f ∈ failures (Connection.open config w₀).2, f.isFatal = true ∧ (Connection.open config w₀).1.stopped = true) ∧
    (∀ before w e after, es = before ++ (w, e) :: after → ∀ f ∈ failures ((life config w₀ before).1.step w e).2,
      Heeds (life config w₀ before).1 (life config w₀ (before ++ [(w, e)])).1 f) ∧
    ((life config w₀ es).1.stopped = false → ∀ f ∈ failures (life config w₀ es).2, f.isFatal = false) := by
  have hsteps : ∀ before w e after, es = before ++ (w, e) :: after →
      ∀ f ∈ failures ((life config w₀ before).1.step w e).2,
        Heeds (life config w₀ before).1 (life config w₀ (before ++ [(w, e)])).1 f := by
    rintro before w e after rfl f hf
    have hstream : FromStream w :=
      fromStream_of_fromWriter (hw (w, e) (List.mem_append_right before List.mem_cons_self))
    refine (life_turn config w₀ before w e).heeds hstream ?_ (by rwa [failures_news])
    intro x hx
    rw [envelopes_news] at hx
    exact hsmall x (envelopes_step_subset config w₀ before after w e hx)
  refine ⟨fun f hf => open_heeds hf, hsteps, ?_⟩
  clear hw hsmall
  induction es using List.reverseRecOn with
  | nil =>
    rw [life_nil]
    intro hr f hf
    rw [(open_heeds hf).2] at hr
    cases hr
  | append_singleton es x ih =>
    obtain ⟨w, e⟩ := x
    intro hr f hf
    have hlast := hsteps es w e [] rfl f
    rw [life_snoc_snd, failures_append] at hf
    rcases List.mem_append.mp hf with hold | hnew
    · have hbefore : (life config w₀ es).1.stopped = false := by
        rw [life_snoc_fst] at hr
        exact stopped_of_step (life_sound config w₀ es) w e hr
      refine ih ?_ hbefore f hold
      rintro before w' e' after rfl
      exact hsteps before w' e' (after ++ [(w, e)]) (by rw [List.append_assoc, List.cons_append])
    · cases hfatal : f.isFatal with
      | false => rfl
      | true =>
        rw [(hlast hnew).stops hfatal] at hr
        cases hr

def brokenAt (n : Nat) : Circumstances := { atMilliseconds n with writeFault := some (Frame.writeFault "broken pipe") }

def secondIsLate : List (Circumstances × Event) := twoRequests ++ [(atMilliseconds 40, .requestDue)]

/-- The request that is late does not stop the connection. The sign of life that cannot be sent does, and ends the request
that is left. -/
theorem broken_pipe_ends_it :
    (∀ x ∈ secondIsLate ++ [(brokenAt 45, .ping 2)], FromWriter x.1) ∧
    (∀ x ∈ envelopes (life (.default 0) (atMilliseconds 0) (secondIsLate ++ [(brokenAt 45, .ping 2)])).2,
      x.toBytes.length < 2 ^ 32) ∧
    (life (.default 0) (atMilliseconds 0) secondIsLate).1.stopped = false ∧
    (life (.default 0) (atMilliseconds 0) (secondIsLate ++ [(brokenAt 45, .ping 2)])).1.stopped = true := by
  have hwriter : ∀ x ∈ secondIsLate ++ [(brokenAt 45, .ping 2)], FromWriter x.1 := by
    intro x hx f hf
    simp only [secondIsLate, twoRequests, List.mem_append, List.mem_cons, List.not_mem_nil, or_false] at hx
    rcases hx with ((rfl | rfl | rfl) | rfl) | rfl
    · cases hf
    · cases hf
    · cases hf
    · cases hf
    · cases hf
      exact ⟨[.failed "broken pipe"], none, [], by decide, rfl⟩
  have hsmall : ∀ x ∈ envelopes (life (.default 0) (atMilliseconds 0) (secondIsLate ++ [(brokenAt 45, .ping 2)])).2,
      x.toBytes.length < 2 ^ 32 := by
    decide +kernel
  have hlate : .timeout "shut" "000000000001" ∈
      failures ((life (.default 0) (atMilliseconds 0) twoRequests).1.step (atMilliseconds 40) .requestDue).2 := by
    decide +kernel
  have hbroken : Frame.writeFault "broken pipe" ∈
      failures ((life (.default 0) (atMilliseconds 0) secondIsLate).1.step (brokenAt 45) (.ping 2)).2 := by
    decide +kernel
  obtain ⟨-, hsteps, -⟩ := failures_are_heeded (.default 0) (atMilliseconds 0) _ hwriter hsmall
  have hsplit : secondIsLate ++ [(brokenAt 45, .ping 2)] =
      twoRequests ++ (atMilliseconds 40, .requestDue) :: [(brokenAt 45, .ping 2)] := by
    rw [secondIsLate, List.append_assoc]
    rfl
  have hgoes := (hsteps twoRequests _ _ _ hsplit _ hlate).continues rfl
  have hstops := (hsteps secondIsLate _ _ [] rfl _ hbroken).stops rfl
  refine ⟨hwriter, hsmall, ?_, hstops⟩
  rw [secondIsLate]
  exact hgoes.1

end Connection
end TransitLink
