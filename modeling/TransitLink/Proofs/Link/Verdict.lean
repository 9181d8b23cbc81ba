import TransitLink.Proofs.Link.Life

/-!
# How the handshake ends

* `decided?` : what decides the handshake of a life: a greeting that cannot be sent, or else the first event that decides.
* `Standing` : where that leaves a connection.
* `Turn.verdict_of_waiting`, `Turn.verdict_of_not_waiting` : a turn of an open handshake does what the event decides. All
  other turns tell nobody. `Turn.standing` puts them together.
* `first_decision_decides` : the caller that opened the connection is told what decided first, once.
-/

namespace TransitLink.Connection

set_option autoImplicit false

/-! ## What decides first -/

/-- What opening a connection decides. -/
def openDecision? (config : Config) (w : Circumstances) : Option Decision :=
  (send w (greeting config w)).2.map fun why => .fail (.closedBeforeHandshake why.message) .failed

/-- What decides the handshake of a life, if anything does. -/
def decided? (config : Config) (w₀ : Circumstances) (es : List (Circumstances × Event)) : Option Decision :=
  (openDecision? config w₀).or (es.findSome? fun x => x.2.decision? config)

theorem decided?_nil (config : Config) (w₀ : Circumstances) : decided? config w₀ [] = openDecision? config w₀ :=
  Option.or_none

theorem decided?_snoc (config : Config) (w₀ : Circumstances) (es : List (Circumstances × Event)) (w : Circumstances)
    (e : Event) : decided? config w₀ (es ++ [(w, e)]) = (decided? config w₀ es).or (e.decision? config) := by
  rw [decided?, decided?, List.findSome?_append, List.findSome?_singleton, Option.or_assoc]

theorem decided?_append {config : Config} {w₀ : Circumstances} {es : List (Circumstances × Event)} {d : Decision}
    (h : decided? config w₀ es = some d) (later : List (Circumstances × Event)) :
    decided? config w₀ (es ++ later) = some d := by
  rw [decided?] at h
  rw [decided?, List.findSome?_append, ← Option.or_assoc, h, Option.some_or]

/-- Opening a connection decides nothing unless it fails. -/
theorem openDecision?_eq_some {config : Config} {w : Circumstances} {d : Decision} (h : openDecision? config w = some d) :
    ∃ why, d = .fail why .failed := by
  obtain ⟨why, -, rfl⟩ := Option.map_eq_some_iff.mp h
  exact ⟨_, rfl⟩

/-- Where a connection stands after what decided its handshake, if anything did. -/
inductive Standing (c : Connection) : Option Decision → Prop where
  | undecided : c.Waiting → Standing c none
  /-- It failed, and that is the end. -/
  | failed {why : Failure} {p : Phase} : c.Over → c.published = p → Standing c (some (.fail why p))
  /-- It was accepted, and the connection goes on. -/
  | accepted {a : Acknowledgement} : c.Established a → Standing c (some (.accept a))
  /-- It was accepted, and the connection has ended since. -/
  | left {a : Acknowledgement} : c.Over → c.published = .closed → Standing c (some (.accept a))
  | abandoned : c.Over → c.published = .closed → Standing c (some .abandon)

theorem Standing.waiting {c : Connection} (h : Standing c none) : c.Waiting := by
  cases h with
  | undecided hw => exact hw

/-! ## Turns -/

theorem verdicts_closings (t : PendingTable) : verdicts (closings t) = [] := filterMap_settles (fun _ => rfl) _ t

theorem verdicts_farewell (t : PendingTable) (e : Event) : verdicts (farewell t e) = [] :=
  filterMap_farewell (fun _ => rfl) rfl rfl t e

/-- **A turn of an open handshake does what the event decides.** -/
theorem Turn.verdict_of_waiting {c c' : Connection} {w : Circumstances} {e : Event} {es : List Effect}
    (h : Turn c w e c' es) (hw : c.Waiting) :
    Standing c' (e.decision? c.config) ∧ verdicts es = ((e.decision? c.config).bind Decision.result?).toList := by
  cases h with
  | refused h => exact absurd hw h.not_waiting
  | unready => exact ⟨.undecided hw, rfl⟩
  | unreadyPing => exact ⟨.undecided hw, rfl⟩
  | kept _ _ hd =>
    rw [hd]
    exact ⟨.undecided hw, rfl⟩
  | @accepted body a h hd =>
    have hdecision : (Event.frame body).decision? c.config = some (.accept a) := by
      simp only [Event.decision?, hd]
    rw [hdecision]
    exact ⟨.accepted (h.accept w a), rfl⟩
  | @failed _ why p h hd =>
    rw [hd]
    refine ⟨.failed (over_finish _ (Event.phase_of_decision hd)) rfl, ?_⟩
    have hnone := verdicts_farewell [] e
    exact congrArg (.error why :: ·) hnone
  | abandoned => exact ⟨.abandoned (over_finish c (.inr rfl)) rfl, rfl⟩
  | _ => exact absurd ‹c.Established _› hw.not_established

/-- A turn that decides the handshake leaves the connection in the phase that was decided. -/
theorem Turn.phase_decided {c c' : Connection} {w : Circumstances} {e : Event} {es : List Effect}
    (h : Turn c w e c' es) (hw : c.Waiting) {d : Decision} (hd : e.decision? c.config = some d) :
    c'.published = d.phase ∧ c'.handshake.phase = d.phase ∧ ∀ a, d = .accept a → c'.handshake.info = some a := by
  cases h with
  | refused h => exact absurd hw h.not_waiting
  | unready => cases hd
  | unreadyPing => cases hd
  | kept _ _ hn =>
    rw [hn] at hd
    cases hd
  | accepted _ hdecode =>
    simp only [Event.decision?, hdecode, Option.some.injEq] at hd
    subst hd
    refine ⟨rfl, rfl, ?_⟩
    intro b hb
    cases hb
    rfl
  | failed _ hf =>
    rw [hf, Option.some.injEq] at hd
    subst hd
    refine ⟨rfl, rfl, ?_⟩
    intro a ha
    cases ha
  | abandoned =>
    cases hd
    refine ⟨rfl, rfl, ?_⟩
    intro a ha
    cases ha
  | _ => exact absurd ‹c.Established _› hw.not_established

/-- **A turn of a handshake that is not open tells nobody.** -/
theorem Turn.verdict_of_not_waiting {c c' : Connection} {w : Circumstances} {e : Event} {es : List Effect}
    (h : Turn c w e c' es) (hw : ¬c.Waiting) : verdicts es = [] := by
  cases h with
  | refused => cases e <;> rfl
  | accepted h => exact absurd h hw
  | failed h => exact absurd h hw
  | abandoned h => exact absurd h hw
  | uncalled => exact verdicts_closings _
  | unpinged => exact verdicts_closings _
  | unbeat => exact verdicts_closings _
  | expired => exact filterMap_settles (fun _ => rfl) _ _
  | parted => exact verdicts_farewell _ _
  | _ => rfl

/-- One turn, wherever the connection stands. -/
theorem Turn.standing {c c' : Connection} {w : Circumstances} {e : Event} {es : List Effect} (h : Turn c w e c' es)
    {d : Option Decision} (hd : Standing c d) :
    Standing c' (d.or (e.decision? c.config)) ∧
      (d.bind Decision.result?).toList ++ verdicts es = ((d.or (e.decision? c.config)).bind Decision.result?).toList := by
  cases hd with
  | undecided hw => exact h.verdict_of_waiting hw
  | failed ho hp =>
    rw [(h.of_over ho).1, h.verdict_of_not_waiting ho.not_waiting, List.append_nil]
    exact ⟨.failed ho hp, rfl⟩
  | accepted ha =>
    rw [h.verdict_of_not_waiting (fun hw => hw.not_established ha), List.append_nil]
    refine ⟨?_, rfl⟩
    rcases h.of_established ha with ha' | ⟨ho, hp⟩
    · exact .accepted ha'
    · exact .left ho hp
  | left ho hp =>
    rw [(h.of_over ho).1, h.verdict_of_not_waiting ho.not_waiting, List.append_nil]
    exact ⟨.left ho hp, rfl⟩
  | abandoned ho hp =>
    rw [(h.of_over ho).1, h.verdict_of_not_waiting ho.not_waiting, List.append_nil]
    exact ⟨.abandoned ho hp, rfl⟩

/-! ## Whole lives -/

theorem open_standing (config : Config) (w : Circumstances) :
    Standing (Connection.open config w).1 (openDecision? config w) ∧
      verdicts (Connection.open config w).2 = ((openDecision? config w).bind Decision.result?).toList := by
  rw [← verdicts_news, openDecision?]
  cases h : (send w (greeting config w)).2 with
  | none =>
    obtain ⟨hwaiting, hnews⟩ := opened_of_sent h
    rw [hnews]
    exact ⟨.undecided hwaiting, rfl⟩
  | some why =>
    obtain ⟨hover, hp, hnews⟩ := opened_of_fault h
    rw [hnews]
    exact ⟨.failed hover hp, rfl⟩

/-- **What decides first is what the connection stands at and what its caller is told.** -/
theorem life_standing (config : Config) (w₀ : Circumstances) (es : List (Circumstances × Event)) :
    Standing (life config w₀ es).1 (decided? config w₀ es) ∧
      verdicts (life config w₀ es).2 = ((decided? config w₀ es).bind Decision.result?).toList := by
  induction es using List.reverseRecOn with
  | nil =>
    rw [life_nil, decided?_nil]
    exact open_standing config w₀
  | append_singleton es x ih =>
    obtain ⟨w, e⟩ := x
    obtain ⟨hstanding, htold⟩ := ih
    have hnext := (life_turn config w₀ es w e).standing hstanding
    rw [life_config, verdicts_news, ← htold] at hnext
    rw [decided?_snoc, life_snoc_snd, verdicts_append]
    exact hnext

theorem decision?_eq_abandon {config : Config} {e : Event} (h : e.decision? config = some .abandon) : e = .orphaned := by
  cases e with
  | orphaned => rfl
  | frame body =>
    simp only [Event.decision?] at h
    split at h <;> cases h
  | _ => cases h

/-- What decides a handshake is the opening, or an event before which nothing had decided it. -/
theorem decided?_eq_some {config : Config} {w₀ : Circumstances} {es : List (Circumstances × Event)} {d : Decision} :
    decided? config w₀ es = some d ↔ openDecision? config w₀ = some d ∨
      ∃ before w e after, es = before ++ (w, e) :: after ∧ decided? config w₀ before = none ∧
        e.decision? config = some d := by
  simp only [decided?]
  cases openDecision? config w₀ with
  | some d' => simp
  | none =>
    simp only [Option.none_or, List.findSome?_eq_some_iff, List.findSome?_eq_none_iff, reduceCtorEq, false_or]
    constructor
    · rintro ⟨before, ⟨w, e⟩, after, hes, he, hbefore⟩
      exact ⟨before, w, e, after, hes, hbefore, he⟩
    · rintro ⟨before, w, e, after, hes, hbefore, he⟩
      exact ⟨before, (w, e), after, hes, he, hbefore⟩

end TransitLink.Connection
