import TransitLink.Proofs.Link.Phases

/-!
# An established connection takes any frame

* `Turn.frame_of_established` : a frame answers one pending request, or does nothing.
* `no_frame_breaks_it` : so whatever octets arrive, an established connection goes on as it was, with one request less
  if they answer one.
-/

namespace TransitLink.Connection

set_option autoImplicit false

theorem Turn.frame_of_established {c c' : Connection} {w : Circumstances} {body : Bytes} {es : List Effect}
    (h : Turn c w (.frame body) c' es) {a : Acknowledgement} (ha : c.Established a) :
    (∃ r, ∃ p ∈ c.pending, Inbound.decode body = .ok (.response r) ∧ p.id = r.requestId ∧
      c' = { c with pending := c.pending.without p.id } ∧ es = [.settle ⟨p.caller, .ok r⟩]) ∨
    (∀ r, Inbound.decode body = .ok (.response r) → r.requestId ∉ c.pending.ids) ∧ c' = c ∧ es = [] := by
  cases h with
  | refused h => exact absurd ha h.not_established
  | kept h => exact absurd ha h.not_established
  | accepted h => exact absurd ha h.not_established
  | failed h => exact absurd ha h.not_established
  | answered _ hd hp hid => exact .inl ⟨_, _, hp, hd, hid, rfl, rfl⟩
  | parted _ he => cases he
  | unmoved _ hidle => exact .inr ⟨hidle, rfl, rfl⟩

/-- **No frame breaks an established connection.** Whatever has happened before, and whatever octets arrive, well-formed
or not: it goes on, in the same phase, under the same id, with the same signs of life, and sends nothing. Either the frame
is a response to a pending request, and that request is the only one that leaves the table and the only one that ends;
or the table stays as it is and nobody is told anything. -/
theorem no_frame_breaks_it (config : Config) (w₀ : Circumstances) (es : List (Circumstances × Event))
    (w : Circumstances) (body : Bytes) (h : (life config w₀ es).1.handshake.phase = .established) :
    ((life config w₀ es).1.step w (.frame body)).1.stopped = false ∧
    ((life config w₀ es).1.step w (.frame body)).1.handshake = (life config w₀ es).1.handshake ∧
    ((life config w₀ es).1.step w (.frame body)).1.handshake.connectionId? =
      (life config w₀ es).1.handshake.connectionId? ∧
    ((life config w₀ es).1.step w (.frame body)).1.published = (life config w₀ es).1.published ∧
    ((life config w₀ es).1.step w (.frame body)).1.keepalive = (life config w₀ es).1.keepalive ∧
    envelopes ((life config w₀ es).1.step w (.frame body)).2 = [] ∧
    .shutdown ∉ ((life config w₀ es).1.step w (.frame body)).2 ∧
    ((∃ r before p after, Inbound.decode body = .ok (.response r) ∧ p.id = r.requestId ∧
        (life config w₀ es).1.pending = before ++ p :: after ∧
        ((life config w₀ es).1.step w (.frame body)).1.pending = before ++ after ∧
        news ((life config w₀ es).1.step w (.frame body)).2 = [.settle ⟨p.caller, .ok r⟩]) ∨
      (∀ r, Inbound.decode body = .ok (.response r) → r.requestId ∉ (life config w₀ es).1.pending.ids) ∧
        ((life config w₀ es).1.step w (.frame body)).1.pending = (life config w₀ es).1.pending ∧
        news ((life config w₀ es).1.step w (.frame body)).2 = []) := by
  have hsound := life_sound config w₀ es
  obtain ⟨a, ha⟩ := hsound.established_of_phase h
  have hturn := turn_step hsound w (.frame body)
  have hshut : .shutdown ∈ ((life config w₀ es).1.step w (.frame body)).2 →
      .shutdown ∈ news ((life config w₀ es).1.step w (.frame body)).2 := fun hmem => mem_news.mpr ⟨hmem, rfl⟩
  rw [← envelopes_news]
  rcases hturn.frame_of_established ha with ⟨r, p, hp, hd, hid, hc, hn⟩ | ⟨hnone, hc, hn⟩
  · obtain ⟨before, after, hsplit, hwithout⟩ := PendingTable.without_of_mem ha.distinct hp
    rw [hn] at hshut
    rw [hc, hn]
    refine ⟨ha.running, rfl, rfl, rfl, rfl, rfl, ?_, .inl ⟨r, before, p, after, hd, hid, hsplit, hwithout, rfl⟩⟩
    intro hmem
    cases List.mem_singleton.mp (hshut hmem)
  · rw [hn] at hshut
    rw [hc, hn]
    exact ⟨ha.running, rfl, rfl, rfl, rfl, rfl, fun hmem => List.not_mem_nil (hshut hmem), .inr ⟨hnone, rfl, rfl⟩⟩

/-- Two requests are in flight, and the second is answered first. -/
theorem second_request_leaves_the_first :
    (life (.default 0) (atMilliseconds 0) twoRequests).1.handshake.phase = .established ∧
      ∃ before p after, (life (.default 0) (atMilliseconds 0) twoRequests).1.pending = before ++ p :: after ∧
        p.id = "000000000001" ∧
        ((life (.default 0) (atMilliseconds 0) twoRequests).1.step (atMilliseconds 20) (.frame (Bytes.ofText
          "\x7b\"type\":\"response\",\"body\":\x7b\"requestId\":\"000000000001\"\x7d\x7d"))).1.pending =
            before ++ after := by
  have hphase : (life (.default 0) (atMilliseconds 0) twoRequests).1.handshake.phase = .established := by decide +kernel
  have hreply : Inbound.decode (Bytes.ofText
      "\x7b\"type\":\"response\",\"body\":\x7b\"requestId\":\"000000000001\"\x7d\x7d") =
        .ok (.response ⟨"000000000001", none, none, none, []⟩) := by
    rfl
  have hpending : "000000000001" ∈ (life (.default 0) (atMilliseconds 0) twoRequests).1.pending.ids := by
    decide +kernel
  obtain ⟨-, -, -, -, -, -, -, hfate⟩ := no_frame_breaks_it (.default 0) (atMilliseconds 0) twoRequests
    (atMilliseconds 20) _ hphase
  rcases hfate with ⟨r, before, p, after, hd, hid, hsplit, hleft, -⟩ | ⟨hnone, -, -⟩
  · rw [hreply] at hd
    cases hd
    exact ⟨hphase, before, p, after, hsplit, hid, hleft⟩
  · exact absurd hpending (hnone _ hreply)

end TransitLink.Connection
