import TransitLink.Proofs.Link.Life

/-!
# What the phase tells

* `Sound.waiting_of_greeted`, `Sound.established_of_phase` : the stage of a connection can be read off its phase.
* `Sound.stopped_iff` : a connection has stopped if and only if its handshake has failed or is closed.
* `Sound.minds_refusals` : a connection that goes on never ignores an error that the server reports.
* `Over.due?`, `Over.nextTimer?`, `Over.run` : nothing happens to a connection that has stopped.
* `phase_tells_all` : all this between any two events.
-/

namespace TransitLink.Connection

set_option autoImplicit false

/-! ## The stage, by the phase -/

theorem Waiting.phase {c : Connection} (h : c.Waiting) : c.handshake.phase = .greeted := by rw [h.handshake]

theorem Established.phase {c : Connection} {a : Acknowledgement} (h : c.Established a) :
    c.handshake.phase = .established := by
  rw [h.handshake]

theorem Over.handshake_phase {c : Connection} (h : c.Over) :
    c.handshake.phase = .failed ∨ c.handshake.phase = .closed := by
  rw [← h.published]
  exact h.phase

theorem Sound.waiting_of_isPending {c : Connection} (h : c.Sound) (hp : c.handshake.phase.isPending = true) :
    c.Waiting := by
  cases h with
  | waiting h => exact h
  | established h =>
    rw [h.phase] at hp
    cases hp
  | ended h => rcases h.handshake_phase with hf | hf <;> rw [hf] at hp <;> cases hp

theorem Sound.waiting_of_greeted {c : Connection} (h : c.Sound) (hp : c.handshake.phase = .greeted) : c.Waiting :=
  h.waiting_of_isPending (by rw [hp]; rfl)

theorem Sound.established_of_phase {c : Connection} (h : c.Sound) (hp : c.handshake.phase = .established) :
    ∃ a, c.Established a := by
  cases h with
  | waiting h =>
    rw [h.phase] at hp
    cases hp
  | established h => exact ⟨_, h⟩
  | ended h => rcases h.handshake_phase with hf | hf <;> rw [hf] at hp <;> cases hp

/-- **A connection has stopped if and only if its handshake has failed or is closed.** -/
theorem Sound.stopped_iff {c : Connection} (h : c.Sound) :
    c.stopped = true ↔ c.handshake.phase = .failed ∨ c.handshake.phase = .closed := by
  cases h with
  | waiting h => simp [h.running, h.phase]
  | established h => simp [h.running, h.phase]
  | ended h => exact ⟨fun _ => h.handshake_phase, fun _ => h.stopped⟩

theorem Sound.phase_of_running {c : Connection} (h : c.Sound) (hr : c.stopped = false) :
    (c.handshake.phase = .greeted ∨ c.handshake.phase = .established) ∧ c.published = c.handshake.phase := by
  cases h with
  | waiting h => exact ⟨.inl h.phase, by rw [h.published, h.phase]⟩
  | established h => exact ⟨.inr h.phase, by rw [h.published, h.phase]⟩
  | ended h =>
    rw [h.stopped] at hr
    cases hr

theorem Sound.over_of_stopped {c : Connection} (h : c.Sound) (hs : c.stopped = true) : c.Over := by
  cases h with
  | waiting h =>
    rw [h.running] at hs
    cases hs
  | established h =>
    rw [h.running] at hs
    cases hs
  | ended h => exact h

theorem Sound.running_of_not_over {c : Connection} (h : c.Sound) (hn : ¬ c.Over) : c.stopped = false := by
  cases hs : c.stopped with
  | false => rfl
  | true => exact absurd (h.over_of_stopped hs) hn

/-- An error from the server is ignored only after the end. -/
theorem Sound.minds_refusals {c : Connection} (h : c.Sound) (hr : c.stopped = false) (r : Refusal) :
    (c.handshake.onRefusal r).2 ≠ .ignored := by
  rcases (h.phase_of_running hr).1 with hp | hp
  · simp [Handshake.onRefusal, hp]
  · simp [Handshake.onRefusal, hp]

/-! ## After the end -/

theorem Over.due? {c : Connection} (h : c.Over) (now : Time) : c.due? now = none := by
  rw [Connection.due?, if_pos h.stopped]

theorem Over.nextTimer? {c : Connection} (h : c.Over) : c.nextTimer? = none := by
  rw [Connection.nextTimer?, if_pos h.stopped]

/-- **Nothing happens after the end.** Whoever wants something is told that the connection is closed. -/
theorem Over.run {c : Connection} (h : c.Over) (es : List (Circumstances × Event)) :
    c.run es = (c, es.flatMap fun x => refuse x.2) := by
  induction es with
  | nil => rfl
  | cons x es ih => rw [run_cons, h.step, ih, List.flatMap_cons]

/-! ## Between two events -/

theorem life_append (config : Config) (w₀ : Circumstances) (es later : List (Circumstances × Event)) :
    life config w₀ (es ++ later) = onward (life config w₀ es) later := by
  rw [life, life, onward, run_append, onward, onward, List.append_assoc]

/-- **The phase tells all.** Whatever has happened to a connection, in whatever order, before the next event: if it goes
on, the greeting was sent or an acknowledgement accepted, and callers see which; after the greeting nothing is pending, no
sign of life is set, and the caller that opened the connection still waits; once it is established, that caller has been
told and the acknowledgement is kept; and an error from the server is not ignored. It has stopped if and only if the
handshake has failed or is closed. Then callers see that, nothing is pending, no timer is set, and later events change
nothing. -/
theorem phase_tells_all (config : Config) (w₀ : Circumstances) (es : List (Circumstances × Event)) :
    ((life config w₀ es).1.stopped = false →
      ((life config w₀ es).1.handshake.phase = .greeted ∨ (life config w₀ es).1.handshake.phase = .established) ∧
      (life config w₀ es).1.published = (life config w₀ es).1.handshake.phase ∧
      ((life config w₀ es).1.handshake.phase = .greeted → (life config w₀ es).1.pending = [] ∧
        (life config w₀ es).1.keepalive = none ∧ (life config w₀ es).1.awaited = true) ∧
      ((life config w₀ es).1.handshake.phase = .established → (life config w₀ es).1.awaited = false ∧
        ∃ a, (life config w₀ es).1.handshake.info = some a) ∧
      ∀ r, ((life config w₀ es).1.handshake.onRefusal r).2 ≠ .ignored) ∧
    ((life config w₀ es).1.stopped = true ↔
      (life config w₀ es).1.handshake.phase = .failed ∨ (life config w₀ es).1.handshake.phase = .closed) ∧
    ((life config w₀ es).1.stopped = true →
      ((life config w₀ es).1.published = .failed ∨ (life config w₀ es).1.published = .closed) ∧
      (life config w₀ es).1.pending = [] ∧
      (life config w₀ es).1.nextTimer? = none ∧ (∀ now, (life config w₀ es).1.due? now = none) ∧
      ∀ later, life config w₀ (es ++ later) =
        ((life config w₀ es).1, (life config w₀ es).2 ++ later.flatMap fun x => refuse x.2)) := by
  have hsound := life_sound config w₀ es
  refine ⟨?_, hsound.stopped_iff, ?_⟩
  · intro hr
    obtain ⟨hphase, hpublished⟩ := hsound.phase_of_running hr
    refine ⟨hphase, hpublished, ?_, ?_, hsound.minds_refusals hr⟩
    · intro hp
      have h := hsound.waiting_of_greeted hp
      exact ⟨h.pending, h.keepalive, h.awaited⟩
    · intro hp
      obtain ⟨a, h⟩ := hsound.established_of_phase hp
      exact ⟨h.awaited, a, by rw [h.handshake]⟩
  · intro hs
    have hover := hsound.over_of_stopped hs
    refine ⟨hover.phase, hover.pending, hover.nextTimer?, hover.due?, ?_⟩
    intro later
    rw [life_append, onward, hover.run]

end TransitLink.Connection
