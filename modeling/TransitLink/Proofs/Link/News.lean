import TransitLink.Link.Effect

/-!
# Effects without the log

* `news` : effects without the lines of the log.
* `settlements`, `verdicts`, `envelopes` : the requests that end, what the caller that opened the connection is told, and
  what is sent, each in order. The log tells nothing about them (`settlements_news`, `verdicts_news`,
  `envelopes_news`).
-/

namespace TransitLink

set_option autoImplicit false

/-! ## News -/

def Effect.isLog : Effect → Bool
  | .log _ => true
  | _ => false

def news (es : List Effect) : List Effect := es.filter fun e => !e.isLog

@[simp] theorem news_nil : news [] = [] := rfl

@[simp] theorem news_append (es fs : List Effect) : news (es ++ fs) = news es ++ news fs := List.filter_append ..

@[simp] theorem news_debug (s : String) (es : List Effect) : news (.debug s :: es) = news es := rfl

@[simp] theorem news_info (s : String) (es : List Effect) : news (.info s :: es) = news es := rfl

@[simp] theorem news_warn (s : String) (es : List Effect) : news (.warn s :: es) = news es := rfl

@[simp] theorem news_error (s : String) (es : List Effect) : news (.error s :: es) = news es := rfl

theorem news_cons {e : Effect} (h : e.isLog = false) (es : List Effect) : news (e :: es) = e :: news es :=
  List.filter_cons_of_pos (by simp [h])

@[simp] theorem news_send (x : Envelope) (f : Option Failure) (es : List Effect) :
    news (.send x f :: es) = .send x f :: news es := rfl

@[simp] theorem news_shutdown_cons (es : List Effect) : news (.shutdown :: es) = .shutdown :: news es := rfl

@[simp] theorem news_connected (r : Except Failure Acknowledgement) (es : List Effect) :
    news (.connected r :: es) = .connected r :: news es := rfl

@[simp] theorem news_settle (s : Settled) (es : List Effect) : news (.settle s :: es) = .settle s :: news es := rfl

@[simp] theorem news_pinged (n : Nat) (r : Except Failure Unit) (es : List Effect) :
    news (.pinged n r :: es) = .pinged n r :: news es := rfl

@[simp] theorem news_closed (es : List Effect) : news (.closed :: es) = .closed :: news es := rfl

@[simp] theorem news_settles {α : Type} (f : α → Settled) (xs : List α) :
    news (xs.map fun x => .settle (f x)) = xs.map fun x => .settle (f x) :=
  List.filter_eq_self.mpr fun e he => by
    obtain ⟨x, -, rfl⟩ := List.mem_map.mp he
    rfl

theorem news_lines {α : Type} (f : α → String) (xs : List α) : news (xs.map fun x => .warn (f x)) = [] :=
  List.filter_eq_nil_iff.mpr fun e he => by
    obtain ⟨x, -, rfl⟩ := List.mem_map.mp he
    exact Bool.false_ne_true

theorem mem_news {e : Effect} {es : List Effect} : e ∈ news es ↔ e ∈ es ∧ e.isLog = false := by
  rw [news, List.mem_filter, Bool.not_eq_true']

theorem mem_of_mem_news {e : Effect} {es : List Effect} (h : e ∈ news es) : e ∈ es := (mem_news.mp h).1

/-- What is read off effects and skips the log can be read off the news. -/
theorem filterMap_news {α : Type} {f : Effect → Option α} (hf : ∀ l, f (.log l) = none) (es : List Effect) :
    (news es).filterMap f = es.filterMap f := by
  induction es with
  | nil => rfl
  | cons e es ih =>
    cases e with
    | log l => rw [List.filterMap_cons_none (hf l)]; exact ih
    | _ => rw [news_cons rfl, List.filterMap_cons, List.filterMap_cons, ih]

theorem filterMap_settles {α β : Type} {f : Effect → Option α} (hf : ∀ s, f (.settle s) = none) (g : β → Settled)
    (xs : List β) : (xs.map fun x => .settle (g x)).filterMap f = [] := by
  rw [List.filterMap_eq_nil_iff]
  intro e he
  obtain ⟨x, -, rfl⟩ := List.mem_map.mp he
  exact hf (g x)

/-! ## What is read off effects -/

def settlements (es : List Effect) : List Settled :=
  es.filterMap fun
    | .settle s => some s
    | _ => none

def verdicts (es : List Effect) : List (Except Failure Acknowledgement) :=
  es.filterMap fun
    | .connected r => some r
    | _ => none

/-- The envelopes that are sent, whether or not that meets a fault. -/
def envelopes (es : List Effect) : List Envelope :=
  es.filterMap fun
    | .send x _ => some x
    | _ => none

theorem mem_settlements {es : List Effect} {s : Settled} : s ∈ settlements es ↔ .settle s ∈ es := by
  rw [settlements, List.mem_filterMap]
  constructor
  · rintro ⟨e, he, hs⟩
    cases e with
    | settle s' =>
      cases hs
      exact he
    | _ => cases hs
  · exact fun hs => ⟨.settle s, hs, rfl⟩

theorem settlements_news (es : List Effect) : settlements (news es) = settlements es := filterMap_news (fun _ => rfl) es

theorem verdicts_news (es : List Effect) : verdicts (news es) = verdicts es := filterMap_news (fun _ => rfl) es

theorem envelopes_news (es : List Effect) : envelopes (news es) = envelopes es := filterMap_news (fun _ => rfl) es

@[simp] theorem settlements_append (es fs : List Effect) : settlements (es ++ fs) = settlements es ++ settlements fs :=
  List.filterMap_append

@[simp] theorem verdicts_append (es fs : List Effect) : verdicts (es ++ fs) = verdicts es ++ verdicts fs :=
  List.filterMap_append

@[simp] theorem envelopes_append (es fs : List Effect) : envelopes (es ++ fs) = envelopes es ++ envelopes fs :=
  List.filterMap_append

theorem settlements_settles {α : Type} (f : α → Settled) (xs : List α) :
    settlements (xs.map fun x => .settle (f x)) = xs.map f := by
  rw [settlements, List.filterMap_map, ← List.filterMap_eq_map]
  rfl

end TransitLink
