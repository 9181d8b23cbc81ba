import Mathlib.Data.List.Count
import TransitLink.Proofs.Link.Life

/-!
# Every request ends once

* `callers`, `settledCallers`, `waiters` : who has asked, who has been answered, and who waits.
* `stranded` : the callers of requests for which every id that was drawn is in use. Drawing goes on for them.
* `Turn.balance`, `run_balance` : those who have been answered, those who wait and the stranded are those who have asked,
  each as often as he has asked.
* `Asked` : where a pending request comes from. `Grounds` : why a request ends as it does. `Turn.answers`, `Turn.expires` :
  when it does.
* `requests_end_once` : the balance over whole lives, with what holds at the end of a connection and before a close is
  acknowledged.
-/

namespace TransitLink.Connection

set_option autoImplicit false

/-! ## The balance -/

def callers (es : List (Circumstances × Event)) : List Nat := es.filterMap fun x => x.2.caller?

def settledCallers (es : List Effect) : List Nat := (settlements es).map Settled.caller

def waiters (c : Connection) : List Nat := c.pending.map Pending.caller

/-- The caller of a request for which no id is drawn that is free. -/
def stranded? (c : Connection) (w : Circumstances) : Event → Option Nat
  | .request caller _ _ _ =>
    if c.published = .established ∧ RequestId.pick? c.pending.ids w.draws = none then some caller else none
  | _ => none

def stranded : Connection → List (Circumstances × Event) → List Nat := along fun c w e => (c.stranded? w e).toList

theorem stranded_cons (c : Connection) (w : Circumstances) (e : Event) (es : List (Circumstances × Event)) :
    c.stranded ((w, e) :: es) = (c.stranded? w e).toList ++ (c.step w e).1.stranded es := rfl

theorem settledCallers_append (es fs : List Effect) :
    settledCallers (es ++ fs) = settledCallers es ++ settledCallers fs := by
  simp [settledCallers]

theorem settledCallers_news (es : List Effect) : settledCallers (news es) = settledCallers es := by
  rw [settledCallers, settlements_news, settledCallers]

theorem callers_cons (w : Circumstances) (e : Event) (es : List (Circumstances × Event)) :
    callers ((w, e) :: es) = e.caller?.toList ++ callers es := by
  rw [callers, List.filterMap_cons]
  cases e.caller? <;> rfl

theorem waiters_finish (c : Connection) (p : Phase) : (c.finish p).waiters = [] := rfl

theorem waiters_enroll (c : Connection) (w : Circumstances) (caller : Nat) (id action : String) (timeout : Duration) :
    (c.enroll w caller id action timeout).waiters = c.waiters ++ [caller] :=
  List.map_append

theorem settlements_closings (t : PendingTable) :
    settlements (closings t) = t.map fun p => ⟨p.caller, .error .connectionClosed⟩ :=
  settlements_settles _ t

theorem settlements_farewell (t : PendingTable) (e : Event) :
    settlements (farewell t e) = t.map fun p => ⟨p.caller, .error .connectionClosed⟩ := by
  rw [← settlements_closings]
  cases e with
  | close => exact (settlements_append (.shutdown :: closings t) [.closed]).trans (List.append_nil _)
  | _ => rfl

theorem settledCallers_closings (c : Connection) : settledCallers (closings c.pending) = c.waiters := by
  rw [settledCallers, settlements_closings, List.map_map]
  rfl

theorem settledCallers_farewell (c : Connection) (e : Event) : settledCallers (farewell c.pending e) = c.waiters := by
  rw [settledCallers, settlements_farewell, List.map_map]
  rfl

theorem stranded?_of_ne {c : Connection} (h : c.published ≠ .established) (w : Circumstances) (e : Event) :
    c.stranded? w e = none := by
  cases e with
  | request => exact if_neg fun hc => h hc.1
  | _ => rfl

theorem stranded?_of_pick {c : Connection} {w : Circumstances} {id : String}
    (h : RequestId.pick? c.pending.ids w.draws = some id) (e : Event) : c.stranded? w e = none := by
  cases e with
  | request =>
    apply if_neg
    rintro ⟨-, hn⟩
    rw [h] at hn
    cases hn
  | _ => rfl

theorem stranded?_of_caller {e : Event} (h : e.caller? = none) (c : Connection) (w : Circumstances) :
    c.stranded? w e = none := by
  cases e with
  | request => cases h
  | _ => rfl

/-- **One turn keeps the balance.** -/
theorem Turn.balance {c c' : Connection} {w : Circumstances} {e : Event} {es : List Effect} (h : Turn c w e c' es) :
    (settledCallers es ++ c'.waiters ++ (c.stranded? w e).toList).Perm (c.waiters ++ e.caller?.toList) := by
  cases h with
  | refused h =>
    rw [stranded?_of_ne h.unestablished, waiters, h.pending]
    cases e <;> exact .refl _
  | unready h =>
    rw [stranded?_of_ne h.unestablished, waiters, h.pending]
    exact .refl _
  | unreadyPing h =>
    rw [stranded?_of_caller rfl]
    exact .refl _
  | kept h hp =>
    rw [stranded?_of_ne h.unestablished, Event.caller?_of_isPassive hp]
    exact .refl _
  | accepted h =>
    rw [stranded?_of_caller rfl]
    exact .refl _
  | failed h hd =>
    rw [stranded?_of_ne h.unestablished, Event.caller?_of_decision hd, waiters, waiters, h.pending]
    rw [show settledCallers (.connected _ :: farewell [] e) = settledCallers (farewell [] e) from rfl, settledCallers,
      settlements_farewell]
    exact .refl _
  | abandoned h =>
    rw [waiters, waiters, h.pending]
    exact .refl _
  | stranded h hp =>
    rw [stranded?, if_pos ⟨h.published, hp⟩]
    exact .refl _
  | called h hp =>
    rw [stranded?_of_pick hp]
    rw [waiters_enroll]
    exact .of_eq (List.append_nil _)
  | @uncalled a caller action payload timeout id why h hp =>
    rw [stranded?_of_pick hp]
    have hs : settledCallers (.send (callEnvelope w a id action payload) (some why) ::
        .settle ⟨caller, .error why⟩ :: closings c.pending) = caller :: settledCallers (closings c.pending) := rfl
    rw [hs, settledCallers_closings, waiters_finish, List.append_nil, Option.toList_none, List.append_nil]
    exact (List.perm_append_singleton caller c.waiters).symm
  | pinged h =>
    rw [stranded?_of_caller rfl]
    exact .refl _
  | @unpinged a caller why h =>
    rw [stranded?_of_caller rfl]
    have hs : settledCallers (.send (.ping w.wallClock a.connectionId) (some why) ::
        .pinged caller (.error why) :: closings c.pending) = settledCallers (closings c.pending) := rfl
    rw [hs, settledCallers_closings, waiters_finish]
    exact .of_eq (List.append_nil _)
  | beat h hk =>
    rw [stranded?_of_caller rfl]
    exact .refl _
  | @unbeat a k why h hk =>
    rw [stranded?_of_caller rfl]
    have hs : settledCallers (.send (.ping w.wallClock a.connectionId) (some why) :: closings c.pending) =
        settledCallers (closings c.pending) := rfl
    rw [hs, settledCallers_closings, waiters_finish]
    exact .of_eq (List.append_nil _)
  | answered h hd hp hid =>
    rw [stranded?_of_caller rfl]
    have hw := (PendingTable.perm_cons_without h.distinct hp).map Pending.caller
    rw [Option.toList_none, List.append_nil]
    exact hw.trans (.of_eq (List.append_nil _).symm)
  | expired h =>
    rw [stranded?_of_caller rfl]
    have hw := (PendingTable.perm_due_append c.pending w.now).map Pending.caller
    have hs : settledCallers ((c.pending.due w.now).map fun p => .settle (PendingTable.timedOut p)) =
        (c.pending.due w.now).map Pending.caller := by
      rw [settledCallers, settlements_settles, List.map_map]
      rfl
    rw [hs, Option.toList_none, List.append_nil]
    rw [List.map_append] at hw
    exact hw.trans (.of_eq (List.append_nil _).symm)
  | parted h he =>
    have hn := Event.caller?_of_isParting he
    rw [stranded?_of_caller hn, hn, settledCallers_farewell, waiters_finish]
    exact .of_eq (List.append_nil _)
  | unmoved h hi =>
    rw [stranded?_of_caller hi.caller?, hi.caller?]
    exact .refl _

/-- **A run keeps the balance.** -/
theorem run_balance {c : Connection} (h : c.Sound) (es : List (Circumstances × Event)) :
    (settledCallers (c.run es).2 ++ (c.run es).1.waiters ++ c.stranded es).Perm (c.waiters ++ callers es) := by
  induction es generalizing c with
  | nil => exact .of_eq (by simp [run, stranded, along, callers, settledCallers, settlements])
  | cons x es ih =>
    obtain ⟨w, e⟩ := x
    have hturn := turn_step h w e
    have hfirst := hturn.balance
    have hrest := ih hturn.sound
    rw [settledCallers_news] at hfirst
    rw [run_cons, settledCallers_append, stranded_cons, callers_cons]
    -- what the first step and the rest come to is counted for each caller
    rw [List.perm_iff_count] at hfirst hrest ⊢
    intro a
    have h₁ := hfirst a
    have h₂ := hrest a
    simp only [List.count_append] at h₁ h₂ ⊢
    omega

theorem stranded_eq_nil {c : Connection} {es : List (Circumstances × Event)} (h : c.Supplied es) :
    c.stranded es = [] := by
  induction es generalizing c with
  | nil => rfl
  | cons x es ih =>
    obtain ⟨w, e⟩ := x
    obtain ⟨id, hid, hfree⟩ := h [] w e es rfl
    have hrest : (c.step w e).1.Supplied es := by
      intro before w' e' after hes
      exact h ((w, e) :: before) w' e' after (by rw [hes, List.cons_append])
    rw [stranded_cons, ih hrest]
    cases hp : RequestId.pick? c.pending.ids w.draws with
    | none => exact absurd (RequestId.pick?_eq_none hp id hid) hfree
    | some id' => rw [stranded?_of_pick hp, Option.toList_none, List.append_nil]

/-! ## Where pending requests come from -/

/-- Where a pending request comes from: some event asked for it and it was sent. -/
def Asked (config : Config) (w₀ : Circumstances) (es : List (Circumstances × Event)) (p : Pending) : Prop :=
  ∃ before w payload timeout after a,
    es = before ++ (w, .request p.caller p.action payload timeout) :: after ∧
    p.deadline = deadlineAfter w.now timeout ∧
    (life config w₀ before).1.Established a ∧
    .send (callEnvelope w a p.id p.action payload) none ∈
      ((life config w₀ before).1.step w (.request p.caller p.action payload timeout)).2

/-- A request that is pending after a turn was pending before it, or the turn sent it. -/
theorem Turn.mem_pending {c c' : Connection} {w : Circumstances} {e : Event} {es : List Effect} (h : Turn c w e c' es)
    {p : Pending} (hp : p ∈ c'.pending) :
    p ∈ c.pending ∨ ∃ payload timeout a, e = .request p.caller p.action payload timeout ∧
      p.deadline = deadlineAfter w.now timeout ∧ c.Established a ∧
      .send (callEnvelope w a p.id p.action payload) none ∈ es := by
  cases h with
  | failed => cases hp
  | abandoned => cases hp
  | uncalled => cases hp
  | unpinged => cases hp
  | unbeat => cases hp
  | parted => cases hp
  | called h =>
    rcases List.mem_append.mp hp with hold | hnew
    · exact .inl hold
    · cases List.mem_singleton.mp hnew
      exact .inr ⟨_, _, _, rfl, rfl, h, List.mem_singleton_self _⟩
  | answered => exact .inl (PendingTable.mem_without.mp hp).1
  | expired => exact .inl (List.mem_of_mem_filter hp)
  | _ => exact .inl hp

theorem Asked.snoc {config : Config} {w₀ : Circumstances} {es : List (Circumstances × Event)} {p : Pending}
    (h : Asked config w₀ es p) (x : Circumstances × Event) : Asked config w₀ (es ++ [x]) p := by
  obtain ⟨before, w, payload, timeout, after, a, hes, hrest⟩ := h
  refine ⟨before, w, payload, timeout, after ++ [x], a, ?_, hrest⟩
  rw [hes, List.append_assoc, List.cons_append]

/-- **Every pending request was asked for and sent.** -/
theorem pending_asked {config : Config} {w₀ : Circumstances} {es : List (Circumstances × Event)} {p : Pending}
    (hp : p ∈ (life config w₀ es).1.pending) : Asked config w₀ es p := by
  induction es using List.reverseRecOn with
  | nil =>
    rw [life_nil, open_pending] at hp
    cases hp
  | append_singleton es x ih =>
    obtain ⟨w, e⟩ := x
    rcases (life_turn config w₀ es w e).mem_pending hp with hold | ⟨payload, timeout, a, rfl, hd, ha, hsent⟩
    · exact (ih hold).snoc (w, e)
    · exact ⟨es, w, payload, timeout, [], a, rfl, hd, ha, mem_of_mem_news hsent⟩

/-! ## Why requests end -/

/-- Why an event ends a request as it does: the connection before and after it, and its effects. -/
inductive Grounds (c : Connection) (w : Circumstances) (c' : Connection) (es : List Effect) :
    Event → Settled → Prop where
  /-- The request came while the handshake was open. -/
  | early {caller : Nat} {action : String} {payload : Json} {timeout : Duration} : c.published = .greeted →
      Grounds c w c' es (.request caller action payload timeout) ⟨caller, .error .notEstablished⟩
  /-- The request came after the end. -/
  | late {caller : Nat} {action : String} {payload : Json} {timeout : Duration} : c.stopped = true →
      Grounds c w c' es (.request caller action payload timeout) ⟨caller, .error .connectionClosed⟩
  /-- The request could not be sent. -/
  | unsent {caller : Nat} {action : String} {payload : Json} {timeout : Duration} {a : Acknowledgement} {id : String}
      {why : Failure} : c.Established a → .send (callEnvelope w a id action payload) (some why) ∈ es →
      Frame.encode (callEnvelope w a id action payload).toBytes = .error why ∨ w.writeFault = some why →
      Grounds c w c' es (.request caller action payload timeout) ⟨caller, .error why⟩
  /-- A response under its id arrived. -/
  | answered {body : Bytes} {r : Response} {p : Pending} : p ∈ c.pending →
      Inbound.decode body = .ok (.response r) → r.requestId = p.id →
      Grounds c w c' es (.frame body) ⟨p.caller, .ok r⟩
  /-- It had waited long enough. -/
  | timedOut {p : Pending} : p ∈ c.pending → p.deadline ≤ w.now →
      Grounds c w c' es .requestDue ⟨p.caller, .error (.timeout p.action p.id)⟩
  /-- The connection ended. -/
  | ended {e : Event} {p : Pending} : p ∈ c.pending → c'.stopped = true →
      Grounds c w c' es e ⟨p.caller, .error .connectionClosed⟩

theorem mem_closings {t : PendingTable} {s : Settled} (h : s ∈ settlements (closings t)) :
    ∃ p ∈ t, s = ⟨p.caller, .error .connectionClosed⟩ := by
  rw [settlements_closings] at h
  obtain ⟨p, hp, rfl⟩ := List.mem_map.mp h
  exact ⟨p, hp, rfl⟩

/-- **Every request that a turn ends has its grounds.** -/
theorem Turn.grounds {c c' : Connection} {w : Circumstances} {e : Event} {es : List Effect} (h : Turn c w e c' es)
    {s : Settled} (hs : s ∈ settlements es) : Grounds c w c' es e s := by
  cases h with
  | refused h =>
    cases e with
    | request =>
      cases List.mem_singleton.mp hs
      exact .late h.stopped
    | _ => cases hs
  | unready h =>
    cases List.mem_singleton.mp hs
    exact .early h.published
  | failed =>
    have hnone : settlements (farewell [] e) = [] := settlements_farewell [] e
    have hs : s ∈ settlements (farewell [] e) := hs
    rw [hnone] at hs
    cases hs
  | uncalled h hp hf =>
    rcases List.mem_cons.mp hs with rfl | hrest
    · exact .unsent h List.mem_cons_self (send_fault hf)
    · obtain ⟨p, hp, rfl⟩ := mem_closings hrest
      exact .ended hp rfl
  | unpinged =>
    obtain ⟨p, hp, rfl⟩ := mem_closings hs
    exact .ended hp rfl
  | unbeat =>
    obtain ⟨p, hp, rfl⟩ := mem_closings hs
    exact .ended hp rfl
  | parted =>
    rw [settlements_farewell, ← settlements_closings] at hs
    obtain ⟨p, hp, rfl⟩ := mem_closings hs
    exact .ended hp rfl
  | answered h hd hp hid =>
    cases List.mem_singleton.mp hs
    exact .answered hp hd hid.symm
  | expired h =>
    rw [settlements_settles] at hs
    obtain ⟨p, hp, rfl⟩ := List.mem_map.mp hs
    obtain ⟨hmem, hdue⟩ := List.mem_filter.mp hp
    exact .timedOut hmem (of_decide_eq_true hdue)
  | _ => cases hs

/-! ## When requests end -/

/-- A response ends the request under its id, and no other. -/
theorem Turn.answers {c c' : Connection} {w : Circumstances} {body : Bytes} {es : List Effect}
    (h : Turn c w (.frame body) c' es) {r : Response} (hr : Inbound.decode body = .ok (.response r)) {p : Pending}
    (hp : p ∈ c.pending) (hid : p.id = r.requestId) : settlements es = [⟨p.caller, .ok r⟩] := by
  cases h with
  | refused h =>
    rw [h.pending] at hp
    cases hp
  | kept h =>
    rw [h.pending] at hp
    cases hp
  | accepted h =>
    rw [h.pending] at hp
    cases hp
  | failed h =>
    rw [h.pending] at hp
    cases hp
  | answered h hr' hq hqid =>
    rw [hr] at hr'
    cases hr'
    -- no other request is pending under this id
    have hsame := PendingTable.eq_of_id_eq h.distinct hq hp (hqid.trans hid.symm)
    rw [hsame]
    rfl
  | parted _ he => cases he
  | unmoved _ hidle => exact absurd (PendingTable.mem_ids.mpr ⟨p, hp, hid⟩) (hidle r hr)

/-- When the clock is looked at, every request that has waited long enough ends. -/
theorem Turn.expires {c c' : Connection} {w : Circumstances} {es : List Effect} (h : Turn c w .requestDue c' es)
    {p : Pending} (hp : p ∈ c.pending) (hdue : p.deadline ≤ w.now) :
    ⟨p.caller, .error (.timeout p.action p.id)⟩ ∈ settlements es := by
  cases h with
  | refused h =>
    rw [h.pending] at hp
    cases hp
  | kept h =>
    rw [h.pending] at hp
    cases hp
  | failed h =>
    rw [h.pending] at hp
    cases hp
  | expired h =>
    rw [settlements_settles]
    exact List.mem_map.mpr ⟨p, List.mem_filter.mpr ⟨hp, decide_eq_true hdue⟩, rfl⟩
  | parted _ he => cases he
  | unmoved _ hidle => cases hidle

/-! ## Beginning and closing -/

/-- A request that begins replaces no other. -/
theorem Turn.keeps_pending {c c' : Connection} {w : Circumstances} {e : Event} {es : List Effect} (h : Turn c w e c' es)
    {caller : Nat} (he : e.caller? = some caller) : c.pending <+: c'.pending ∨ c'.stopped = true := by
  cases h with
  | uncalled => exact .inr rfl
  | failed => exact .inr rfl
  | abandoned => exact .inr rfl
  | unpinged => exact .inr rfl
  | unbeat => exact .inr rfl
  | parted => exact .inr rfl
  | called => exact .inl (List.prefix_append _ _)
  | answered => cases he
  | expired => cases he
  | _ => exact .inl List.prefix_rfl

/-- **A close ends the connection, and is acknowledged last.** -/
theorem Turn.close {c c' : Connection} {w : Circumstances} {es : List Effect} (h : Turn c w .close c' es) :
    c'.Over ∧ ∃ before, es = before ++ [.closed] := by
  cases h with
  | refused h => exact ⟨h, [], rfl⟩
  | kept _ hp => cases hp
  | failed h hd => exact ⟨over_finish _ (Event.phase_of_decision hd), .connected _ :: .shutdown :: closings [], rfl⟩
  | parted => exact ⟨over_finish _ (.inr rfl), .shutdown :: closings c.pending, rfl⟩
  | unmoved _ hi => cases hi

/-! ## Whole lives -/

theorem settledCallers_open (config : Config) (w : Circumstances) : settledCallers (Connection.open config w).2 = [] := by
  rw [← settledCallers_news]
  cases h : (send w (greeting config w)).2 with
  | none =>
    rw [(opened_of_sent h).2]
    rfl
  | some why =>
    rw [(opened_of_fault h).2.2]
    rfl

theorem waiters_open (config : Config) (w : Circumstances) : (Connection.open config w).1.waiters = [] := by
  rw [waiters, open_pending]
  rfl

theorem life_balance (config : Config) (w₀ : Circumstances) (es : List (Circumstances × Event)) :
    (settledCallers (life config w₀ es).2 ++ (life config w₀ es).1.waiters ++
      (Connection.open config w₀).1.stranded es).Perm (callers es) := by
  have hrun := run_balance (open_sound config w₀) es
  rw [waiters_open, List.nil_append] at hrun
  rw [life, onward, settledCallers_append, settledCallers_open, List.nil_append]
  exact hrun

/-- When a close comes, everybody who has asked is told before it is acknowledged. -/
theorem close_balance (config : Config) (w₀ : Circumstances) (es : List (Circumstances × Event)) (w : Circumstances) :
    ∃ before, news (life config w₀ (es ++ [(w, .close)])).2 = before ++ [.closed] ∧
      (settledCallers before ++ (Connection.open config w₀).1.stranded es).Perm (callers es) := by
  have hturn := life_turn config w₀ es w .close
  have hbefore := life_balance config w₀ es
  -- the last turn settles everybody who waited before it, since nobody waits when the connection is over
  have hlast := hturn.balance
  obtain ⟨hover, before, hn⟩ := hturn.close
  refine ⟨news (life config w₀ es).2 ++ before, ?_, ?_⟩
  · rw [life_snoc_snd, news_append, hn, List.append_assoc]
  · rw [hn, settledCallers_append, stranded?_of_caller rfl, waiters, hover.pending] at hlast
    rw [settledCallers_append, settledCallers_news]
    have hclosed : settledCallers [.closed] = [] := rfl
    have hnobody : Event.close.caller? = none := rfl
    rw [hclosed, hnobody] at hlast
    simp only [List.map_nil, Option.toList_none, List.append_nil] at hlast
    rw [List.append_assoc] at hbefore ⊢
    exact ((hlast.append_right _).append_left _).trans hbefore

/-- **Every request ends once.** Whatever happens to a connection, in whatever order: the callers who have been answered,
those who wait and those for whom drawing ids goes on are those who have asked, each as often as he has asked; nobody
waits when the connection has stopped; a request that begins replaces none; a close is acknowledged after everybody who
has asked before it has been answered; whoever waits has asked, and is answered by a response under his id or when he has
waited long enough; and every answer has its grounds. -/
theorem requests_end_once (config : Config) (w₀ : Circumstances) (es : List (Circumstances × Event)) :
    (settledCallers (life config w₀ es).2 ++ (life config w₀ es).1.waiters ++
      (Connection.open config w₀).1.stranded es).Perm (callers es) ∧
    ((Connection.open config w₀).1.Supplied es → (Connection.open config w₀).1.stranded es = []) ∧
    ((life config w₀ es).1.stopped = true → (life config w₀ es).1.pending = []) ∧
    (life config w₀ es).1.pending.ids.Nodup ∧
    (∀ (w : Circumstances) (p : Pending), RequestId.pick? (life config w₀ es).1.pending.ids w.draws = some p.id →
      (life config w₀ es).1.pending.register p = ((life config w₀ es).1.pending ++ [p], none)) ∧
    (∀ w caller action payload timeout,
      (life config w₀ es).1.pending <+:
        ((life config w₀ es).1.step w (.request caller action payload timeout)).1.pending ∨
        ((life config w₀ es).1.step w (.request caller action payload timeout)).1.stopped = true) ∧
    (∀ w, ∃ before, news (life config w₀ (es ++ [(w, .close)])).2 = before ++ [.closed] ∧
      (settledCallers before ++ (Connection.open config w₀).1.stranded es).Perm (callers es)) ∧
    (∀ p ∈ (life config w₀ es).1.pending, Asked config w₀ es p ∧
      (∀ w body r, Inbound.decode body = .ok (.response r) → p.id = r.requestId →
        settlements ((life config w₀ es).1.step w (.frame body)).2 = [⟨p.caller, .ok r⟩]) ∧
      ∀ w : Circumstances, p.deadline ≤ w.now →
        ⟨p.caller, .error (.timeout p.action p.id)⟩ ∈ settlements ((life config w₀ es).1.step w .requestDue).2) ∧
    (∀ w e s, .settle s ∈ ((life config w₀ es).1.step w e).2 →
      Grounds (life config w₀ es).1 w (life config w₀ (es ++ [(w, e)])).1
        (news ((life config w₀ es).1.step w e).2) e s) := by
  have hsound := life_sound config w₀ es
  refine ⟨life_balance config w₀ es, stranded_eq_nil, hsound.pending_of_stopped, hsound.distinct, ?_, ?_,
    close_balance config w₀ es, ?_, ?_⟩
  · intro w p hp
    exact PendingTable.register_of_fresh (RequestId.pick?_eq_some hp).2
  · intro w caller action payload timeout
    exact (turn_step hsound w (.request caller action payload timeout)).keeps_pending rfl
  · intro p hp
    refine ⟨pending_asked hp, ?_, ?_⟩
    · intro w body r hr hid
      rw [← settlements_news]
      exact (turn_step hsound w (.frame body)).answers hr hp hid
    · intro w hdue
      rw [← settlements_news]
      exact (turn_step hsound w .requestDue).expires hp hdue
  · intro w e s hs
    apply (life_turn config w₀ es w e).grounds
    rw [settlements_news]
    exact mem_settlements.mpr hs

end TransitLink.Connection
