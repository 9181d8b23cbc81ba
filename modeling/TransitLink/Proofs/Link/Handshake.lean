import Mathlib.Data.List.Basic
import Mathlib.Data.List.Induction
import TransitLink.Link.Handshake

/-!
# The handshake, whatever is called

* `Handshake.Call`, `Handshake.Reply` : what can be called on a handshake, and what a call answers.
* `Handshake.run` : some calls in turn, with their replies.
* `Reply.settles` : a reply that tells how the handshake ends. `Reply.declines` : a reply that says that nothing comes of
  the call.
* `Move` : everything that one call can do. `move_call` : every call is such a move.
* `Stage` : where calls leave a fresh handshake, by the replies that settled it. `Move.stage` : one more call.
* `settles_at_most_once` : the handshake is settled at most once, and stays settled.
-/

namespace TransitLink.Handshake

set_option autoImplicit false

/-! ## Calls and replies -/

inductive Call where
  | markSent
  | acknowledge (a : Acknowledgement)
  | refuse (r : Refusal)
  | lose (reason : String)
  | fail
  | close

inductive Reply where
  | sent (r : Except Failure Unit)
  | acknowledged (a : Option Acknowledgement)
  | refused (o : RefusalOutcome)
  | lost (why : Option Failure)
  | failed (undecided : Bool)
  | closed

namespace Reply

def settles : Reply → Bool
  | acknowledged (some _) => true
  | refused (.rejected _) => true
  | lost (some (.closedBeforeHandshake _)) => true
  | failed true => true
  | _ => false

def declines : Reply → Bool
  | sent (.error _) => true
  | acknowledged none => true
  | refused .warning => true
  | refused .ignored => true
  | lost none => true
  | failed false => true
  | _ => false

def accepted? : Reply → Option Acknowledgement
  | acknowledged a => a
  | _ => none

theorem settles_of_accepted {r : Reply} {a : Acknowledgement} (h : r.accepted? = some a) : r.settles = true := by
  cases r with
  | acknowledged b =>
    cases h
    rfl
  | _ => cases h

theorem not_settles_of_declines {r : Reply} (h : r.declines = true) : r.settles = false := by
  cases r with
  | acknowledged a =>
    cases a with
    | none => rfl
    | some a => cases h
  | refused o =>
    cases o with
    | rejected why => cases h
    | _ => rfl
  | lost why =>
    cases why with
    | none => rfl
    | some why => cases h
  | failed undecided =>
    cases undecided with
    | false => rfl
    | true => cases h
  | _ => rfl

end Reply

def call (h : Handshake) : Call → Handshake × Reply
  | .markSent => (h.markSent.1, .sent h.markSent.2)
  | .acknowledge a => ((h.onAcknowledgement a).1, .acknowledged (h.onAcknowledgement a).2)
  | .refuse r => ((h.onRefusal r).1, .refused (h.onRefusal r).2)
  | .lose reason => ((h.onLost reason).1, .lost (h.onLost reason).2)
  | .fail => (h.fail.1, .failed h.fail.2)
  | .close => (h.close, .closed)

def run (h : Handshake) : List Call → Handshake × List Reply
  | [] => (h, [])
  | x :: xs => ((run (h.call x).1 xs).1, (h.call x).2 :: (run (h.call x).1 xs).2)

/-- Whether a call tells how a handshake in this phase ends. -/
def decides (p : Phase) : Call → Bool
  | .acknowledge _ => p = .greeted
  | .refuse _ => p.isPending
  | .lose _ => p.isPending
  | .fail => p.isPending
  | .markSent => false
  | .close => false

def settling (rs : List Reply) : List Reply := rs.filter Reply.settles

def accepted (rs : List Reply) : List Acknowledgement := rs.filterMap Reply.accepted?

theorem run_append (h : Handshake) (xs ys : List Call) :
    h.run (xs ++ ys) = (((h.run xs).1.run ys).1, (h.run xs).2 ++ ((h.run xs).1.run ys).2) := by
  induction xs generalizing h with
  | nil => rfl
  | cons x xs ih => rw [List.cons_append, run, ih, run, List.cons_append]

theorem run_snoc (h : Handshake) (xs : List Call) (x : Call) :
    h.run (xs ++ [x]) = (((h.run xs).1.call x).1, (h.run xs).2 ++ [((h.run xs).1.call x).2]) := by
  rw [run_append, run, run]

theorem settling_snoc_of_settles {r : Reply} (h : r.settles = true) (rs : List Reply) :
    settling (rs ++ [r]) = settling rs ++ [r] := by
  rw [settling, List.filter_append, List.filter_cons_of_pos h, List.filter_nil, settling]

theorem settling_snoc_of_not {r : Reply} (h : r.settles = false) (rs : List Reply) :
    settling (rs ++ [r]) = settling rs := by
  rw [settling, List.filter_append, List.filter_cons_of_neg (by simp [h]), List.filter_nil, List.append_nil, settling]

theorem accepted_settling (rs : List Reply) : accepted (settling rs) = accepted rs := by
  rw [accepted, settling, List.filterMap_filter, accepted]
  apply List.filterMap_congr
  intro r _
  cases hr : r.accepted? with
  | none => split <;> rfl
  | some a => rw [if_pos (Reply.settles_of_accepted hr)]

/-! ## One call -/

/-- Everything that a call can do to a handshake, with its reply. -/
inductive Move (h : Handshake) : Call → Handshake → Reply → Prop where
  /-- The greeting was sent. -/
  | greets : h.phase = .connecting → Move h .markSent { h with phase := .greeted } (.sent (.ok ()))
  /-- The acknowledgement is accepted. -/
  | accepts {a : Acknowledgement} : h.phase = .greeted →
      Move h (.acknowledge a) ⟨.established, some a⟩ (.acknowledged (some a))
  /-- The handshake fails. -/
  | fails {x : Call} {r : Reply} : h.phase.isPending = true → r.settles = true → r.accepted? = none →
      Move h x { h with phase := .failed } r
  /-- Nothing comes of it. -/
  | idles {x : Call} {r : Reply} : r.declines = true → Move h x h r
  /-- An established connection is lost. -/
  | parts {reason : String} : h.phase = .established → Move h (.lose reason) { h with phase := .closed } (.lost none)
  | closes : Move h .close { h with phase := .closed } .closed

/-- **Every call is such a move.** -/
theorem move_call (h : Handshake) (x : Call) : Move h x (h.call x).1 (h.call x).2 := by
  cases x with
  | markSent =>
    cases hp : h.phase with
    | connecting =>
      simp only [call, markSent, hp]
      exact .greets hp
    | _ =>
      simp only [call, markSent, hp]
      exact .idles rfl
  | acknowledge a =>
    cases hp : h.phase with
    | greeted =>
      simp only [call, onAcknowledgement, hp]
      exact .accepts hp
    | _ =>
      simp only [call, onAcknowledgement, hp]
      exact .idles rfl
  | refuse r =>
    cases hp : h.phase with
    | connecting =>
      simp only [call, onRefusal, hp]
      exact .fails (by rw [hp]; rfl) rfl rfl
    | greeted =>
      simp only [call, onRefusal, hp]
      exact .fails (by rw [hp]; rfl) rfl rfl
    | _ =>
      simp only [call, onRefusal, hp]
      exact .idles rfl
  | lose reason =>
    cases hp : h.phase with
    | connecting =>
      simp only [call, onLost, hp]
      exact .fails (by rw [hp]; rfl) rfl rfl
    | greeted =>
      simp only [call, onLost, hp]
      exact .fails (by rw [hp]; rfl) rfl rfl
    | established =>
      simp only [call, onLost, hp]
      exact .parts hp
    | _ =>
      simp only [call, onLost, hp]
      exact .idles rfl
  | fail =>
    cases hp : h.phase.isPending with
    | true =>
      simp only [call, fail, hp, if_true]
      exact .fails hp rfl rfl
    | false =>
      simp only [call, fail, hp, Bool.false_eq_true, if_false]
      exact .idles rfl
  | close => exact .closes

theorem settles_call (h : Handshake) (x : Call) : (h.call x).2.settles = decides h.phase x := by
  cases x with
  | markSent => cases hp : h.phase <;> simp only [call, markSent, hp] <;> rfl
  | acknowledge a => cases hp : h.phase <;> simp only [call, onAcknowledgement, hp] <;> rfl
  | refuse r => cases hp : h.phase <;> simp only [call, onRefusal, hp] <;> rfl
  | lose reason => cases hp : h.phase <;> simp only [call, onLost, hp] <;> rfl
  | fail => cases hp : h.phase <;> simp only [call, fail, hp] <;> rfl
  | close => rfl

/-! ## Moves -/

/-- A handshake becomes established only by an acknowledgement after the greeting. -/
theorem Move.establishes {h h' : Handshake} {x : Call} {r : Reply} (m : Move h x h' r) (hp : h.phase ≠ .established)
    (hp' : h'.phase = .established) :
    h.phase = .greeted ∧ ∃ a, x = .acknowledge a ∧ h' = ⟨.established, some a⟩ ∧ r = .acknowledged (some a) := by
  cases m with
  | accepts h => exact ⟨h, _, rfl, rfl, rfl⟩
  | idles => exact absurd hp' hp
  | greets => cases hp'
  | fails => cases hp'
  | parts => cases hp'
  | closes => cases hp'

theorem Move.decided {h h' : Handshake} {x : Call} {r : Reply} (m : Move h x h' r) (hp : h.phase.isPending = false) :
    h'.phase.isPending = false := by
  cases m with
  | greets hc =>
    rw [hc] at hp
    cases hp
  | idles => exact hp
  | accepts => rfl
  | fails => rfl
  | parts => rfl
  | closes => rfl

theorem Move.ended {h h' : Handshake} {x : Call} {r : Reply} (m : Move h x h' r)
    (hp : h.phase = .failed ∨ h.phase = .closed) : h'.phase = .failed ∨ h'.phase = .closed := by
  cases m with
  | greets hc => simp [hc] at hp
  | accepts hg => simp [hg] at hp
  | fails => exact .inl rfl
  | idles => exact hp
  | parts => exact .inr rfl
  | closes => exact .inr rfl

/-- A call that is declined changes nothing, unless it tells an established connection that it is lost. -/
theorem Move.declined {h h' : Handshake} {x : Call} {r : Reply} (m : Move h x h' r) (hr : r.declines = true) :
    h' = h ∨ h.phase = .established ∧ (∃ reason, x = .lose reason) ∧ h' = { h with phase := .closed } := by
  cases m with
  | greets => cases hr
  | accepts => cases hr
  | fails _ hs =>
    rw [Reply.not_settles_of_declines hr] at hs
    cases hs
  | idles => exact .inl rfl
  | parts hp => exact .inr ⟨hp, ⟨_, rfl⟩, rfl⟩
  | closes => cases hr

/-- Where calls leave a fresh handshake, by the replies that settled it. -/
inductive Stage : Handshake → List Reply → Prop where
  | undecided {h : Handshake} : h.phase.isPending = true → h.info = none → Stage h []
  | established {a : Acknowledgement} : Stage ⟨.established, some a⟩ [.acknowledged (some a)]
  | ended {h : Handshake} {rs : List Reply} : h.phase = .failed ∨ h.phase = .closed → rs.length ≤ 1 → Stage h rs

theorem Stage.length_le {h : Handshake} {rs : List Reply} (hs : Stage h rs) : rs.length ≤ 1 := by
  cases hs with
  | undecided => exact Nat.zero_le 1
  | established => exact Nat.le_refl 1
  | ended _ hrs => exact hrs

theorem Stage.of_isPending {h : Handshake} {rs : List Reply} (hs : Stage h rs) (hp : h.phase.isPending = true) :
    rs = [] ∧ h.info = none := by
  cases hs with
  | undecided _ hi => exact ⟨rfl, hi⟩
  | established => cases hp
  | ended he => rcases he with he | he <;> simp [he, Phase.isPending] at hp

theorem Stage.of_established {h : Handshake} {rs : List Reply} (hs : Stage h rs) (hp : h.phase = .established) :
    ∃ a, h.info = some a ∧ rs = [.acknowledged (some a)] := by
  cases hs with
  | undecided ho =>
    rw [hp] at ho
    cases ho
  | established => exact ⟨_, rfl, rfl⟩
  | ended he => simp [hp] at he

/-- **One more call** settles the handshake only if nothing has settled it. -/
theorem Move.stage {h h' : Handshake} {x : Call} {r : Reply} {rs : List Reply} (m : Move h x h' r)
    (hs : Stage h (settling rs)) : Stage h' (settling (rs ++ [r])) := by
  have hlength := hs.length_le
  cases m with
  | greets hc =>
    rw [settling_snoc_of_not rfl]
    obtain ⟨hrs, hi⟩ := hs.of_isPending (by rw [hc]; rfl)
    rw [hrs]
    exact .undecided rfl hi
  | accepts hg =>
    rw [settling_snoc_of_settles rfl, (hs.of_isPending (by rw [hg]; rfl)).1]
    exact .established
  | fails ho hr =>
    rw [settling_snoc_of_settles hr, (hs.of_isPending ho).1]
    exact .ended (.inl rfl) (Nat.le_refl 1)
  | idles hr =>
    rw [settling_snoc_of_not (Reply.not_settles_of_declines hr)]
    exact hs
  | parts =>
    rw [settling_snoc_of_not rfl]
    exact .ended (.inr rfl) hlength
  | closes =>
    rw [settling_snoc_of_not rfl]
    exact .ended (.inr rfl) hlength

/-! ## Runs -/

theorem run_stage (xs : List Call) : Stage (run {} xs).1 (settling (run {} xs).2) := by
  induction xs using List.reverseRecOn with
  | nil => exact .undecided rfl rfl
  | append_singleton xs x ih =>
    rw [run_snoc]
    exact (move_call _ x).stage ih

/-- What every call keeps is kept by all calls. -/
theorem run_keeps {P : Handshake → Prop} (hcall : ∀ h x, P h → P (h.call x).1) {h : Handshake} (hh : P h)
    (xs : List Call) : P (h.run xs).1 := by
  induction xs generalizing h with
  | nil => exact hh
  | cons x xs ih => exact ih (hcall h x hh)

theorem run_decided {h : Handshake} (hp : h.phase.isPending = false) (xs : List Call) :
    (h.run xs).1.phase.isPending = false :=
  run_keeps (P := fun h => h.phase.isPending = false) (fun h x hp => (move_call h x).decided hp) hp xs

theorem run_ended {h : Handshake} (hp : h.phase = .failed ∨ h.phase = .closed) (xs : List Call) :
    (h.run xs).1.phase = .failed ∨ (h.run xs).1.phase = .closed :=
  run_keeps (P := fun h => h.phase = .failed ∨ h.phase = .closed) (fun h x hp => (move_call h x).ended hp) hp xs

/-- An acknowledgement that is accepted was received. -/
theorem call_of_accepted {h : Handshake} {xs : List Call} {a : Acknowledgement}
    (ha : .acknowledged (some a) ∈ (h.run xs).2) : .acknowledge a ∈ xs := by
  induction xs generalizing h with
  | nil => cases ha
  | cons x xs ih =>
    rcases List.mem_cons.mp ha with hfirst | hlater
    · have m := move_call h x
      rw [← hfirst] at m
      generalize (h.call x).1 = h' at m
      cases m with
      | accepts => exact List.mem_cons_self
      | fails _ _ hn => cases hn
      | idles hd => cases hd
    · exact List.mem_cons_of_mem x (ih hlater)

theorem connectionId?_of_not {h : Handshake} (hp : h.phase ≠ .established) : h.connectionId? = none := by
  rw [connectionId?, isEstablished, decide_eq_false hp, if_neg Bool.false_ne_true]

theorem connectionId?_of_info {h : Handshake} {a : Acknowledgement} (hp : h.phase = .established)
    (hi : h.info = some a) : h.connectionId? = some a.connectionId := by
  rw [connectionId?, isEstablished, decide_eq_true hp, if_pos rfl, hi, Option.map_some]

/-- **A handshake is settled at most once.** Whatever is called on a fresh handshake, in whatever order: at most one reply
tells how it ends, and none as long as it is open; a call tells how it ends exactly if the handshake is open and the call is
an acknowledgement after the greeting, a refusal, a loss or a failure. It becomes established only by an acknowledgement
after the greeting. Once it is settled or closed it is never open again, and once it has failed or is closed it stays so.
It has an id exactly as long as it is established, namely that of the one acknowledgement that was accepted. A call that is
declined changes nothing, except that an established connection is closed when it is lost. -/
theorem settles_at_most_once (xs : List Call) :
    (settling (run {} xs).2).length ≤ 1 ∧
    ((run {} xs).1.phase.isPending = true → settling (run {} xs).2 = []) ∧
    (∀ x, ((run {} xs).1.call x).2.settles = decides (run {} xs).1.phase x) ∧
    (∀ x, (run {} xs).1.phase ≠ .established → ((run {} xs).1.call x).1.phase = .established →
      (run {} xs).1.phase = .greeted ∧ ∃ a, x = .acknowledge a ∧
        (run {} xs).1.call x = (⟨.established, some a⟩, .acknowledged (some a))) ∧
    (∀ later,
      ((run {} xs).1.phase.isPending = false → (run {} (xs ++ later)).1.phase.isPending = false) ∧
      ((run {} xs).1.phase = .failed ∨ (run {} xs).1.phase = .closed →
        (run {} (xs ++ later)).1.phase = .failed ∨ (run {} (xs ++ later)).1.phase = .closed)) ∧
    ((run {} xs).1.connectionId?.isSome = true ↔ (run {} xs).1.phase = .established) ∧
    (∀ id, (run {} xs).1.connectionId? = some id →
      ∃ a, accepted (run {} xs).2 = [a] ∧ .acknowledge a ∈ xs ∧ id = a.connectionId) ∧
    (∀ x, ((run {} xs).1.call x).2.declines = true →
      ((run {} xs).1.call x).1 = (run {} xs).1 ∨
      (run {} xs).1.phase = .established ∧ (∃ reason, x = .lose reason) ∧
        ((run {} xs).1.call x).1 = { (run {} xs).1 with phase := .closed }) ∧
    (∀ reason, (run {} xs).1.phase = .established →
      (run {} xs).1.call (.lose reason) = ({ (run {} xs).1 with phase := .closed }, .lost none)) := by
  have hstage := run_stage xs
  refine ⟨hstage.length_le, fun hp => (hstage.of_isPending hp).1, settles_call _, ?_, ?_, ?_, ?_,
    fun x => (move_call _ x).declined, ?_⟩
  · intro x hp hp'
    obtain ⟨hg, a, hx, hh, hr⟩ := (move_call _ x).establishes hp hp'
    exact ⟨hg, a, hx, Prod.ext hh hr⟩
  · intro later
    rw [run_append]
    exact ⟨fun hp => run_decided hp later, fun hp => run_ended hp later⟩
  · constructor
    · intro hid
      by_contra hp
      rw [connectionId?_of_not hp] at hid
      cases hid
    · intro hp
      obtain ⟨a, hi, -⟩ := hstage.of_established hp
      rw [connectionId?_of_info hp hi]
      rfl
  · intro id hid
    have hp : (run {} xs).1.phase = .established := by
      by_contra hp
      rw [connectionId?_of_not hp] at hid
      cases hid
    obtain ⟨a, hi, hrs⟩ := hstage.of_established hp
    have haccepted : accepted (run {} xs).2 = [a] := by
      rw [← accepted_settling, hrs]
      rfl
    have hreply : .acknowledged (some a) ∈ settling (run {} xs).2 := by
      rw [hrs]
      exact List.mem_cons_self
    rw [connectionId?_of_info hp hi] at hid
    cases hid
    exact ⟨a, haccepted, call_of_accepted (List.mem_of_mem_filter hreply), rfl⟩
  · intro reason hp
    simp only [call, onLost, hp]

end TransitLink.Handshake
