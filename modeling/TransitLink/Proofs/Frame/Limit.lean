import TransitLink.Proofs.Frame.Reader

/-!
# The limit on frames

* `FirstExcess limit s start n` : behind `start` octets of `s` begins the first frame over the limit, and it announces
  `n` octets. `excess?_eq_some_iff` : `excess?` finds it, as soon as its header is there (`excess?_of_isPrefix`).
* `arrived` : the octets that some reads deliver. `readings` : the reads of one call.
* `Steady` : what a reader keeps as long as no call fails. `Steady.next` : what a call makes of it.
* `FirstExcess.unique` : there is one such frame at most.
* `limit_is_kept` : no frame is longer than the limit, no more is held back than one frame within the limit, and the fault
  comes from the call that reads the last octet of the header.
-/

namespace TransitLink

set_option autoImplicit false

namespace Frame

/-! ## The first frame over the limit -/

/-- Complete frames within the limit fill the first `start` octets, and the next four announce `n`, which is too much. -/
def FirstExcess (limit : Nat) (s : Bytes) (start n : Nat) : Prop :=
  ∃ front more bodies, s = front ++ more ∧ front.length = start ∧ Framed front bodies [] ∧
    (∀ body ∈ bodies, body.length ≤ limit) ∧ declared? more = some n ∧ limit < n

theorem first?_of_header {header body : Bytes} (hheader : header.length = headerLength)
    (hbody : Bytes.ofBigEndian header = body.length) (rest : Bytes) :
    first? (header ++ (body ++ rest)) = some (body, rest) :=
  first?_eq_some_iff.mpr ⟨header, hheader, hbody, rfl⟩

theorem excess?_of_framed {limit n : Nat} {front rest more : Bytes} {bodies : List Bytes} (h : Framed front bodies rest)
    (hrest : rest = []) (hbodies : ∀ body ∈ bodies, body.length ≤ limit) (hmore : declared? more = some n) (hn : limit < n) :
    excess? limit (front ++ more) = some n := by
  induction h with
  | rest _ =>
    rw [hrest, List.nil_append]
    exact excess?_of_declared hmore hn
  | @frame header body bs rest bodies hheader hbody _ ih =>
    have hfirst := first?_of_header hheader hbody (bs ++ more)
    rw [List.append_assoc, List.append_assoc, excess?_of_some hfirst, if_pos (hbodies body List.mem_cons_self)]
    exact ih hrest fun b hb => hbodies b (List.mem_cons_of_mem _ hb)

/-- `excess?` finds the first frame over the limit. -/
theorem excess?_eq_some_iff {limit n : Nat} {s : Bytes} :
    excess? limit s = some n ↔ ∃ start, FirstExcess limit s start n := by
  constructor
  · intro h
    induction s using frames_induction with
    | none s hfirst =>
      obtain ⟨hn, hlt⟩ := declared?_of_excess hfirst h
      exact ⟨0, [], s, [], rfl, rfl, framed_nil, by simp, hn, hlt⟩
    | frame s body rest hfirst ih =>
      obtain ⟨header, hheader, hbody, rfl⟩ := first?_eq_some_iff.mp hfirst
      rw [excess?_of_some hfirst] at h
      split at h
      · rename_i hle
        obtain ⟨_, front, more, bodies, rfl, -, hframed, hbodies, hmore⟩ := ih h
        refine ⟨_, header ++ (body ++ front), more, body :: bodies, by simp only [List.append_assoc], rfl,
          .frame hheader hbody hframed, ?_, hmore⟩
        exact List.forall_mem_cons.mpr ⟨hle, hbodies⟩
      · -- this frame itself is over the limit
        rename_i hlt
        obtain rfl := Option.some.inj h
        exact ⟨0, [], _, [], rfl, rfl, framed_nil, by simp, declared?_of_some hfirst, by omega⟩
  · rintro ⟨_, front, more, bodies, rfl, -, hframed, hbodies, hmore, hn⟩
    exact excess?_of_framed hframed rfl hbodies hmore hn

/-- Frames within the limit come before the first one over it in one way only. -/
theorem Framed.length_le {limit n : Nat} {front rest other tail more : Bytes} {bodies others : List Bytes}
    (h : Framed front bodies rest) (hrest : rest = []) (ho : Framed other others []) (he : front ++ tail = other ++ more)
    (hothers : ∀ body ∈ others, body.length ≤ limit) (hbodies : ∀ body ∈ bodies, body.length ≤ limit)
    (hmore : declared? more = some n) (hn : limit < n) : front.length ≤ other.length := by
  induction h generalizing other others with
  | rest _ => simp [hrest]
  | @frame header body bs rest bodies hheader hbody _ ih =>
    have hfirst := first?_of_header hheader hbody (bs ++ tail)
    rw [List.append_assoc, List.append_assoc] at he
    rw [he] at hfirst
    generalize hnil : ([] : Bytes) = r at ho
    cases ho with
    | rest _ =>
      -- the frame at hand would be the one over the limit
      rw [← hnil, List.nil_append] at hfirst
      have hlong := Option.some.inj ((declared?_of_some hfirst).symm.trans hmore)
      have := hbodies body List.mem_cons_self
      omega
    | @frame header' body' bs' _ others hheader' hbody' ho =>
      have hfirst' := first?_of_header hheader' hbody' (bs' ++ more)
      rw [List.append_assoc, List.append_assoc, hfirst'] at hfirst
      simp only [Option.some.injEq, Prod.mk.injEq] at hfirst
      obtain ⟨rfl, hbs⟩ := hfirst
      have hle := ih hrest (hnil ▸ ho) hbs.symm (fun b hb => hothers b (List.mem_cons_of_mem _ hb))
        fun b hb => hbodies b (List.mem_cons_of_mem _ hb)
      simp only [List.length_append, hheader, hheader']
      omega

/-- There is one first frame over the limit at most. -/
theorem FirstExcess.unique {limit n m start other : Nat} {s : Bytes} (h : FirstExcess limit s start n)
    (ho : FirstExcess limit s other m) : start = other ∧ n = m := by
  have hlength : some n = some m :=
    (excess?_eq_some_iff.mpr ⟨start, h⟩).symm.trans (excess?_eq_some_iff.mpr ⟨other, ho⟩)
  refine ⟨?_, Option.some.inj hlength⟩
  obtain ⟨front, more, bodies, rfl, rfl, hframed, hbodies, hmore, hn⟩ := h
  obtain ⟨front', more', bodies', he, rfl, hframed', hbodies', hmore', hm⟩ := ho
  exact Nat.le_antisymm (hframed.length_le rfl hframed' he hbodies' hbodies hmore' hm)
    (hframed'.length_le rfl hframed he.symm hbodies hbodies' hmore hn)

theorem length_of_declared? {bs : Bytes} {n : Nat} (h : declared? bs = some n) : headerLength ≤ bs.length := by
  refine Nat.le_of_not_lt fun hshort => ?_
  rw [declared?_eq_none_iff.mpr hshort] at h
  cases h

theorem FirstExcess.length_le {limit n start : Nat} {s : Bytes} (h : FirstExcess limit s start n) :
    start + headerLength ≤ s.length := by
  obtain ⟨front, more, _, rfl, rfl, -, -, hmore, -⟩ := h
  have := length_of_declared? hmore
  simp only [List.length_append]
  omega

theorem FirstExcess.append {limit n start : Nat} {s : Bytes} (h : FirstExcess limit s start n) (later : Bytes) :
    FirstExcess limit (s ++ later) start n := by
  obtain ⟨front, more, bodies, rfl, hlength, hframed, hbodies, hmore, hn⟩ := h
  exact ⟨front, more ++ later, bodies, by rw [List.append_assoc], hlength, hframed, hbodies,
    declared?_append_of_some hmore later, hn⟩

/-- The first octets are over the limit exactly if they reach the end of the header that is. -/
theorem excess?_of_isPrefix {limit m : Nat} (s later : Bytes) :
    excess? limit s = some m ↔ ∃ start, FirstExcess limit (s ++ later) start m ∧ start + headerLength ≤ s.length := by
  constructor
  · intro h
    obtain ⟨start, hstart⟩ := excess?_eq_some_iff.mp h
    exact ⟨start, hstart.append later, hstart.length_le⟩
  · rintro ⟨start, ⟨front, more, bodies, he, rfl, hframed, hbodies, hmore, hn⟩, hle⟩
    refine excess?_eq_some_iff.mpr ⟨_, front, s.drop front.length, bodies, ?_, rfl, hframed, hbodies, ?_, hn⟩
    · have htake := congrArg (List.take front.length) he
      rw [List.take_append_of_le_length (by omega), List.take_left] at htake
      rw [← htake, List.length_take, Nat.min_eq_left (by omega), List.take_append_drop]
    · -- the header ends inside these octets
      have hdrop := congrArg (List.drop front.length) he
      rw [List.drop_append_of_le_length (by omega), List.drop_left] at hdrop
      cases hdeclared : declared? (s.drop front.length) with
      | none =>
        rw [declared?_eq_none_iff, List.length_drop] at hdeclared
        omega
      | some k => rw [← declared?_append_of_some hdeclared later, hdrop, hmore]

end Frame

namespace FrameReader

open TransitLink.Frame

/-! ## Streams and calls -/

def arrived : List ReadOutcome → Bytes
  | [] => []
  | .octets bs :: os => bs ++ arrived os
  | _ :: os => arrived os

theorem arrived_append (os ps : List ReadOutcome) : arrived (os ++ ps) = arrived os ++ arrived ps := by
  induction os with
  | nil => rfl
  | cons o os ih => cases o <;> simp [arrived, ih]

/-- The reads of one call: the reader after each, and what the read means. -/
def readings (r : FrameReader) : List ReadOutcome → List (FrameReader × Accepted)
  | [] => []
  | o :: os =>
    match r.ready with
    | _ :: _ => []
    | [] =>
      match r.accept o with
      | (r, .more) => (r, .more) :: readings r os
      | (r, a) => [(r, a)]

/-- A caller may go on after a frame, or when it gave up because there was nothing to read. -/
def Taken.goesOn : Taken → Bool
  | .frame _ => true
  | .waiting => true
  | _ => false

/-- `Live limit os r rest`: after some calls for frames of the stream `os`, none of which told a failure or the end, the
reader is `r` and the stream has `rest` still to yield. -/
inductive Live (limit : Nat) (os : List ReadOutcome) : FrameReader → List ReadOutcome → Prop where
  | start : Live limit os { maxLength := limit } os
  | call {r r' : FrameReader} {rest rest' : List ReadOutcome} {t : Taken} : Live limit os r rest →
      r.next rest = (t, r', rest') → t.goesOn = true → Live limit os r' rest'

/-! ## What a reader keeps -/

/-- The reader has met no failure in these octets. -/
structure Steady (limit : Nat) (past : Bytes) (r : FrameReader) : Prop where
  limit_eq : r.maxLength = limit
  held_eq : r.held = (split past).2
  within : excess? limit past = none
  short : ∀ f ∈ r.ready, f.length ≤ limit

/-- What a call tells about these octets, and what it leaves behind. -/
structure Told (limit : Nat) (now : Bytes) (t : Taken) (r : FrameReader) : Prop where
  steady : t.goesOn = true → Steady limit now r
  short : ∀ f, t = .frame f → f.length ≤ limit
  excess : ∀ n, t = .failed (tooLong n limit) ↔ excess? limit now = some n

variable {limit : Nat} {past : Bytes} {r : FrameReader}

theorem steady_start (limit : Nat) : Steady limit [] { maxLength := limit } := ⟨rfl, rfl, rfl, by simp⟩

theorem Steady.held_lt (h : Steady limit past r) : r.held.length < headerLength + limit := by
  have hincomplete := first?_eq_none_iff.mp (first?_rest past)
  rw [← h.held_eq] at hincomplete
  rcases hincomplete with hshort | ⟨n, hn, hshort⟩
  · omega
  · have hmem : n ∈ announced past := by
      unfold announced
      rw [← h.held_eq, hn]
      simp
    have := excess?_eq_none_iff.mp h.within n hmem
    omega

/-- A chunk is taken in without a failure exactly if it brings no excess. -/
theorem Steady.accept (h : Steady limit past r) (hready : r.ready = []) (chunk : Bytes) :
    (excess? limit (past ++ chunk) = none ∧
      ∃ r', r.accept (.octets chunk) = (r', .more) ∧ Steady limit (past ++ chunk) r') ∨
    ∃ n r', excess? limit (past ++ chunk) = some n ∧ r.accept (.octets chunk) = (r', .failed (tooLong n limit)) := by
  obtain ⟨held, ready, maxLength⟩ := r
  obtain ⟨rfl, rfl, hwithin, -⟩ := h
  obtain rfl : ready = [] := hready
  have hexcess := excess?_append hwithin chunk
  cases hnow : excess? maxLength (past ++ chunk) with
  | none =>
    rw [hnow] at hexcess
    refine .inl ⟨rfl, _, accept_of_within hexcess.symm, rfl, ?_, hnow, ?_⟩
    · exact (congrArg Prod.snd (split_append past chunk)).symm
    · -- every frame that is complete has announced its length
      intro f hf
      refine excess?_eq_none_iff.mp hexcess.symm f.length ?_
      unfold announced
      exact List.mem_append_left _ (List.mem_map_of_mem hf)
  | some n =>
    rw [hnow] at hexcess
    exact .inr ⟨n, _, rfl, accept_of_excess hexcess.symm⟩

theorem tooLong_inj {n m : Nat} (h : tooLong n limit = tooLong m limit) : n = m := by
  unfold tooLong at h
  simp only [Failure.transport.injEq, String.append_left_inj, String.append_right_inj] at h
  have hdigits := congrArg (fun s => Nat.ofDigitChars 10 s.toList 0) h
  simpa using hdigits

/-- A failure whose text begins with another letter is not that of a frame over the limit. -/
theorem ne_tooLong {text rest : String} {c : Char} (hc : text.toList.head? = some c) (hF : c ≠ 'F') (n : Nat) :
    Failure.transport (text ++ rest) ≠ tooLong n limit := by
  intro h
  have hhead := congrArg (fun s => s.toList.head?) (Failure.transport.inj h)
  simp only [String.toList_append, List.head?_append, hc] at hhead
  simp at hhead
  exact hF hhead

/-! ## What a call tells -/

/-- Without a failure over the limit there is no excess to tell. -/
theorem Steady.told (h : Steady limit past r) {t : Taken} {r' : FrameReader} (hs : t.goesOn = true → Steady limit past r')
    (hshort : ∀ f, t = .frame f → f.length ≤ limit) (hn : ∀ n, t ≠ .failed (tooLong n limit)) :
    Told limit past t r' := by
  refine ⟨hs, hshort, fun n => ?_⟩
  rw [h.within]
  exact iff_of_false (hn n) nofun

theorem Steady.told_of_ready (h : Steady limit past r) {f : Bytes} {fs : List Bytes} (hready : r.ready = f :: fs) :
    Told limit past (.frame f) { r with ready := fs } := by
  have hshort := h.short
  rw [hready] at hshort
  refine h.told (fun _ => ⟨h.limit_eq, h.held_eq, h.within, ?_⟩) ?_ (fun _ => nofun)
  · exact fun g hg => hshort g (List.mem_cons_of_mem _ hg)
  · rintro _ ⟨⟩
    exact hshort f List.mem_cons_self

/-- A read that delivers no octets ends the call, and tells nothing about lengths. -/
theorem Steady.told_of_empty (h : Steady limit past r) (o : ReadOutcome) (ho : ∀ bs, o ≠ .octets bs) :
    ∃ a t, r.accept o = (r, a) ∧ a.taken? = some t ∧ arrived [o] = [] ∧ Told limit past t r := by
  cases o with
  | octets bs => exact absurd rfl (ho bs)
  | nothing => exact ⟨_, _, rfl, rfl, rfl, h.told (fun _ => h) (fun _ => nofun) fun _ => nofun⟩
  | failed reason =>
    refine ⟨_, _, rfl, rfl, rfl, h.told nofun (fun _ => nofun) fun n hn => ?_⟩
    have htext : "TCP read failed: ".toList.head? = some 'T' := by simp
    exact ne_tooLong htext (by decide) n (Taken.failed.inj hn)
  | ended =>
    by_cases hheld : r.held.isEmpty = true
    · exact ⟨_, _, if_pos hheld, rfl, rfl, h.told nofun (fun _ => nofun) fun _ => nofun⟩
    · refine ⟨_, _, if_neg hheld, rfl, rfl, h.told nofun (fun _ => nofun) fun n hn => ?_⟩
      have htext : "Connection closed mid-frame with ".toList.head? = some 'C' := by simp
      rw [String.append_assoc] at hn
      exact ne_tooLong htext (by decide) n (Taken.failed.inj hn)

/-- **What a call makes of a steady reader.** It uses up some reads, and tells about all octets that have arrived by then. -/
theorem Steady.next (h : Steady limit past r) (os : List ReadOutcome) :
    ∃ taken, os = taken ++ (r.next os).2.2 ∧ Told limit (past ++ arrived taken) (r.next os).1 (r.next os).2.1 := by
  induction os generalizing past r with
  | nil =>
    refine ⟨[], ?_⟩
    rw [arrived, List.append_nil]
    cases hready : r.ready with
    | cons f fs =>
      rw [next_of_ready hready]
      exact ⟨rfl, h.told_of_ready hready⟩
    | nil =>
      simp only [FrameReader.next, hready]
      refine ⟨rfl, h.told (fun _ => h) ?_ ?_⟩
      · rintro _ ⟨⟩
      · rintro _ ⟨⟩
  | cons o os ih =>
    cases hready : r.ready with
    | cons f fs =>
      refine ⟨[], ?_⟩
      rw [arrived, List.append_nil, next_of_ready hready]
      exact ⟨rfl, h.told_of_ready hready⟩
    | nil =>
      by_cases ho : ∃ bs, o = .octets bs
      · obtain ⟨chunk, rfl⟩ := ho
        rcases h.accept hready chunk with ⟨-, r', haccept, hsteady⟩ | ⟨n, r', hexcess, haccept⟩
        · -- the call reads on
          obtain ⟨taken, htaken, htold⟩ := ih hsteady
          rw [next_of_accept hready haccept]
          refine ⟨.octets chunk :: taken, congrArg (List.cons _) htaken, ?_⟩
          rw [arrived, ← List.append_assoc]
          exact htold
        · rw [next_of_accept hready haccept]
          refine ⟨[.octets chunk], rfl, ?_, ?_, fun m => ?_⟩
          · rintro ⟨⟩
          · rintro _ ⟨⟩
          · rw [arrived, arrived, List.append_nil, hexcess, Option.some.injEq, Accepted.taken?]
            constructor
            · exact fun hm => tooLong_inj (Taken.failed.inj hm)
            · rintro rfl
              rfl
      · obtain ⟨a, t, haccept, ht, harrived, htold⟩ := h.told_of_empty o fun bs hbs => ho ⟨bs, hbs⟩
        refine ⟨[o], ?_⟩
        rw [next_of_accept hready haccept, harrived, List.append_nil]
        simp only [ht]
        exact ⟨rfl, htold⟩

theorem Live.steady {os rest : List ReadOutcome} (h : Live limit os r rest) :
    ∃ before, os = before ++ rest ∧ Steady limit (arrived before) r := by
  induction h with
  | start => exact ⟨[], rfl, steady_start limit⟩
  | @call r r' rest rest' t _ hnext hgoes ih =>
    obtain ⟨before, rfl, hsteady⟩ := ih
    obtain ⟨taken, htaken, htold⟩ := hsteady.next rest
    rw [hnext] at htaken htold
    refine ⟨before ++ taken, by rw [List.append_assoc, ← htaken], ?_⟩
    rw [arrived_append]
    exact htold.steady hgoes

/-- After no read without a failure is more held back than one frame within the limit. -/
theorem Steady.readings_lt (h : Steady limit past r) (os : List ReadOutcome) :
    ∀ x ∈ readings r os, (∀ why, x.2 ≠ .failed why) → x.1.held.length < headerLength + limit := by
  induction os generalizing past r with
  | nil => simp [readings]
  | cons o os ih =>
    intro x hx hok
    unfold readings at hx
    cases hready : r.ready with
    | cons f fs => simp [hready] at hx
    | nil =>
      simp only [hready] at hx
      by_cases ho : ∃ bs, o = .octets bs
      · obtain ⟨chunk, rfl⟩ := ho
        rcases h.accept hready chunk with ⟨-, r', haccept, hsteady⟩ | ⟨n, r', -, haccept⟩
        · simp only [haccept, List.mem_cons] at hx
          rcases hx with rfl | hx
          · exact hsteady.held_lt
          · exact ih hsteady x hx hok
        · simp only [haccept, List.mem_singleton] at hx
          exact absurd (congrArg Prod.snd hx) (hok _)
      · obtain ⟨a, t, haccept, ht, -, -⟩ := h.told_of_empty o fun bs hbs => ho ⟨bs, hbs⟩
        rw [haccept] at hx
        cases a with
        | more => cases ht
        | _ =>
          obtain rfl := List.mem_singleton.mp hx
          exact h.held_lt

/-- **The limit is kept.** A stream delivers any octets in any chunks, with pauses, its end and faults anywhere, and calls
for frames go on until one tells a failure or the end. At most one frame of the stream is the first one over the limit.
Consider such a call. A frame that it gives back is not over the limit. After each of its reads, unless that one fails,
fewer octets are held back than a header and the longest frame have. It tells that a frame is too long, and how long,
exactly if the last octet of the header of the first frame over the limit is among the octets that it reads, wherever the
body is. -/
theorem limit_is_kept (limit : Nat) (os rest : List ReadOutcome) (r : FrameReader) (h : Live limit os r rest) :
    (∀ start n other m, FirstExcess limit (arrived os) start n → FirstExcess limit (arrived os) other m →
      start = other ∧ n = m) ∧
    ∃ before during, os = before ++ rest ∧ rest = during ++ (r.next rest).2.2 ∧
      (∀ f, (r.next rest).1 = .frame f → f.length ≤ limit) ∧
      (∀ x ∈ readings r rest, (∀ why, x.2 ≠ .failed why) → x.1.held.length < headerLength + limit) ∧
      ∀ n, (r.next rest).1 = .failed (tooLong n limit) ↔
        ∃ start, FirstExcess limit (arrived os) start n ∧ (arrived before).length < start + headerLength ∧
          start + headerLength ≤ (arrived (before ++ during)).length := by
  refine ⟨fun start n other m => FirstExcess.unique, ?_⟩
  obtain ⟨before, rfl, hsteady⟩ := h.steady
  obtain ⟨during, hduring, htold⟩ := hsteady.next rest
  refine ⟨before, during, rfl, hduring, htold.short, hsteady.readings_lt rest, fun n => ?_⟩
  -- the stream is what has arrived by now, and then more
  have hrest : arrived rest = arrived during ++ arrived (r.next rest).2.2 := by
    rw [← arrived_append, ← hduring]
  rw [htold.excess n, arrived_append, arrived_append, hrest, ← List.append_assoc]
  refine (excess?_of_isPrefix _ (arrived (r.next rest).2.2)).trans ⟨?_, ?_⟩
  · rintro ⟨start, hstart, hle⟩
    refine ⟨start, hstart, Nat.lt_of_not_le fun hearly => ?_, hle⟩
    -- an earlier call would have told it
    have hpast : excess? limit (arrived before) = some n :=
      (excess?_of_isPrefix _ _).mpr ⟨start, by rwa [List.append_assoc] at hstart, hearly⟩
    rw [hsteady.within] at hpast
    cases hpast
  · rintro ⟨start, hstart, -, hle⟩
    exact ⟨start, hstart, hle⟩

/-- The first call gives back a frame and holds back half a header. The second reads the other half, and tells the nine
octets that it announces. -/
theorem half_a_header :
    Live 4 [.octets [0, 0, 0, 1, 97, 0, 0], .octets [0, 9]] ⟨[0, 0], [], 4⟩ [.octets [0, 9]] ∧
      next ⟨[0, 0], [], 4⟩ [.octets [0, 9]] = (.failed (tooLong 9 4), ⟨[0, 0, 0, 9], [], 4⟩, []) ∧
      ∃ start, FirstExcess 4 [0, 0, 0, 1, 97, 0, 0, 0, 9] start 9 ∧ 7 < start + headerLength ∧ start + headerLength ≤ 9 := by
  have hlive : Live 4 [.octets [0, 0, 0, 1, 97, 0, 0], .octets [0, 9]] ⟨[0, 0], [], 4⟩ [.octets [0, 9]] :=
    .call .start (t := .frame [97]) rfl rfl
  have hnext : next ⟨[0, 0], [], 4⟩ [.octets [0, 9]] = (.failed (tooLong 9 4), ⟨[0, 0, 0, 9], [], 4⟩, []) := rfl
  obtain ⟨-, before, during, hbefore, hduring, -, -, hexcess⟩ := limit_is_kept _ _ _ _ hlive
  change [.octets [0, 0, 0, 1, 97, 0, 0]] ++ [.octets [0, 9]] = before ++ [.octets [0, 9]] at hbefore
  obtain rfl := List.append_cancel_right hbefore
  rw [hnext, List.append_nil] at hduring
  subst hduring
  rw [hnext] at hexcess
  exact ⟨hlive, hnext, (hexcess 9).mp rfl⟩

end FrameReader
end TransitLink
