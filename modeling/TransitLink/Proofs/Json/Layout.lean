import Mathlib.Data.List.Forall2
import TransitLink.Proofs.Json.Numerals

/-!
# Lists and objects in JSON texts

* `Parts close t us` : the octets `t` are the parts `us`, between commas and blanks, up to the octet that closes them.
* `MemberText u f` : the octets `u` are a member of an object, whose name and value's text are `f`.
* `Accepts read P` : the reader `read` reads the texts `t` and gives the values `v` with `P t v`.
* `listItems_eq_ok_iff`, `objectMembers_eq_ok_iff` : which lists and objects are read, given that for their parts.
-/

namespace TransitLink.Json

set_option autoImplicit false

/-! ## Layout -/

/-- What follows a part: more parts, each behind a comma, and then the closing octet. -/
inductive MoreParts (close : UInt8) : Bytes → List Bytes → Prop where
  | close {w : Bytes} : Blank w → MoreParts close (w ++ [close]) []
  | comma {w w' u t : Bytes} {us : List Bytes} : Blank w → Blank w' → MoreParts close t us →
      MoreParts close (w ++ 0x2c :: (w' ++ (u ++ t))) (u :: us)

/-- Some parts with commas between them, and then the closing octet. -/
inductive Parts (close : UInt8) : Bytes → List Bytes → Prop where
  | none {w : Bytes} : Blank w → Parts close (w ++ [close]) []
  | some {w u t : Bytes} {us : List Bytes} : Blank w → MoreParts close t us → Parts close (w ++ (u ++ t)) (u :: us)

/-- A member of an object: a name between quotes, a colon, and the text of a value. -/
def MemberText (u : Bytes) (f : String × Bytes) : Prop :=
  ∃ n w w', u = 0x22 :: (n ++ (w ++ 0x3a :: (w' ++ f.2))) ∧ Spelled n (Bytes.ofText f.1) ∧ Blank w ∧ Blank w'

theorem MoreParts.length_lt {close : UInt8} {t : Bytes} {us : List Bytes} (h : MoreParts close t us) :
    us.length < t.length := by
  induction h with
  | close => simp
  | comma _ _ _ ih =>
    simp only [List.length_append, List.length_cons]
    omega

theorem MoreParts.delimited {close : UInt8} (hclose : close = 0x5d ∨ close = 0x7d) {t : Bytes} {us : List Bytes}
    (h : MoreParts close t us) (rest : Bytes) : Delimited (t ++ rest) := by
  cases h with
  | close hw =>
    rw [List.append_assoc]
    exact hw.delimited (.inr (.inr hclose))
  | comma hw =>
    rw [List.append_assoc]
    exact hw.delimited (.inr (.inl rfl))

/-! ## Readers of parts -/

/-- The reader reads these texts, blanks before them and any delimiter behind them, and gives these values. -/
structure Accepts {α : Type} (read : Reader α) (P : Bytes → α → Prop) : Prop where
  starts : ∀ t v, P t v → ∃ b u, t = b :: u ∧ isSpace b = false ∧ b ≠ 0x5d
  sound : ∀ bs v rest, read bs = .ok (v, rest) → ∃ ws t, Blank ws ∧ bs = ws ++ (t ++ rest) ∧ P t v
  complete : ∀ ws t v rest, Blank ws → P t v → Delimited rest → read (ws ++ (t ++ rest)) = .ok (v, rest)

variable {α : Type}

/-! ## Lists -/

section
variable {item : Reader α} {P : Bytes → α → Prop}

theorem listFrom_of_parts (h : Accepts item P) {t rest : Bytes} {us : List Bytes} (ht : MoreParts 0x5d t us) {vs : List α}
    (hvs : List.Forall₂ P us vs) {fuel : Nat} (hfuel : us.length < fuel) (done : List α) :
    listFrom item fuel false done (t ++ rest) = .ok (done.reverse ++ vs, rest) := by
  induction ht generalizing vs fuel done with
  | close hw =>
    obtain ⟨fuel, rfl⟩ : ∃ n, fuel = n + 1 := ⟨fuel - 1, by simp at hfuel; omega⟩
    cases hvs
    rw [listFrom, List.append_assoc, List.singleton_append, skipSpace_blank_cons hw (by decide)]
    simp
  | @comma w w' u t us hw hw' ht ih =>
    obtain ⟨fuel, rfl⟩ : ∃ n, fuel = n + 1 := ⟨fuel - 1, by simp at hfuel; omega⟩
    obtain _ | ⟨hv, hvs⟩ := hvs
    rename_i v vs
    obtain ⟨b, u', rfl, hblank, hb⟩ := h.starts u v hv
    -- the item is read up to the delimiter that begins the rest
    have hitem := h.complete [] (b :: u') v (t ++ rest) blank_nil hv (ht.delimited (.inl rfl) rest)
    have hrest : listFrom item fuel false (v :: done) (t ++ rest) = .ok ((v :: done).reverse ++ vs, rest) :=
      ih hvs (by simp at hfuel; omega) (v :: done)
    rw [List.nil_append, List.cons_append] at hitem
    rw [listFrom, List.append_assoc, List.cons_append, skipSpace_blank_cons hw (by decide)]
    simp only [List.append_assoc, List.cons_append, skipSpace_blank_cons hw' hblank, hb, hitem, hrest]
    simp

theorem parts_of_listFrom (h : Accepts item P) {fuel : Nat} {done vs : List α} {bs rest : Bytes}
    (hread : listFrom item fuel false done bs = .ok (vs, rest)) :
    ∃ t us vs', bs = t ++ rest ∧ MoreParts 0x5d t us ∧ List.Forall₂ P us vs' ∧ vs = done.reverse ++ vs' := by
  induction fuel generalizing done bs with
  | zero => cases hread
  | succ fuel ih =>
    rw [listFrom] at hread
    split at hread
    · cases hread
    · rename_i b bs' hskip
      obtain ⟨w, hw, rfl⟩ := skipSpace_eq_cons hskip
      split at hread
      · rename_i hb
        cases hread
        subst hb
        exact ⟨w ++ [0x5d], [], [], by simp, .close hw, .nil, by simp⟩
      · rw [if_neg (by simp)] at hread
        split at hread
        · rename_i hb
          subst hb
          split at hread
          · cases hread
          · rename_i c bs'' hskip'
            obtain ⟨w', hw', rfl⟩ := skipSpace_eq_cons hskip'
            split at hread
            · cases hread
            · split at hread
              · cases hread
              · rename_i v after hitem
                obtain ⟨ws, u, hws, hu, hv⟩ := h.sound _ _ _ hitem
                obtain ⟨t, us, vs', rfl, ht, hvs, rfl⟩ := ih hread
                refine ⟨w ++ 0x2c :: ((w' ++ ws) ++ (u ++ t)), u :: us, v :: vs', ?_, .comma hw (hw'.append hws) ht,
                  .cons hv hvs, by simp⟩
                rw [hu]
                simp only [List.append_assoc, List.cons_append]
        · cases hread

/-- **Which lists are read:** those whose parts the reader of items reads. -/
theorem listItems_eq_ok_iff (h : Accepts item P) {bs rest : Bytes} {vs : List α} :
    listItems item bs = .ok (vs, rest) ↔ ∃ t us, bs = t ++ rest ∧ Parts 0x5d t us ∧ List.Forall₂ P us vs := by
  unfold listItems
  rw [listFrom]
  constructor
  · intro hread
    split at hread
    · cases hread
    · rename_i b bs' hskip
      obtain ⟨w, hw, rfl⟩ := skipSpace_eq_cons hskip
      split at hread
      · rename_i hb
        cases hread
        subst hb
        exact ⟨w ++ [0x5d], [], by simp, .none hw, .nil⟩
      · rw [if_pos rfl] at hread
        split at hread
        · cases hread
        · rename_i v after hitem
          obtain ⟨ws, u, hws, hu, hv⟩ := h.sound _ _ _ hitem
          obtain ⟨t, us, vs', rfl, ht, hvs, rfl⟩ := parts_of_listFrom h hread
          refine ⟨(w ++ ws) ++ (u ++ t), u :: us, ?_, .some (hw.append hws) ht, .cons hv hvs⟩
          rw [hu]
          simp only [List.append_assoc]
  · rintro ⟨t, us, rfl, ht, hvs⟩
    cases ht with
    | none hw =>
      cases hvs
      rw [List.append_assoc, List.singleton_append, skipSpace_blank_cons hw (by decide)]
      simp
    | @some w u t us hw ht =>
      obtain _ | ⟨hv, hvs⟩ := hvs
      rename_i v vs
      obtain ⟨b, u', rfl, hblank, hb⟩ := h.starts u v hv
      have hitem := h.complete [] (b :: u') v (t ++ rest) blank_nil hv (ht.delimited (.inl rfl) rest)
      rw [List.nil_append, List.cons_append] at hitem
      have hlength := ht.length_lt
      have hrest : listFrom item (w ++ (b :: u' ++ t) ++ rest).length false [v] (t ++ rest) = .ok (v :: vs, rest) :=
        listFrom_of_parts h ht hvs (by simp; omega) [v]
      simp only [List.append_assoc, List.cons_append] at hrest ⊢
      simp only [skipSpace_blank_cons hw hblank, hb, hitem, hrest]
      simp

end

/-! ## Objects -/

def memberFrom (member : α → String → Except Fault (Reader α)) (sofar : α) : Reader α := fun bs => do
  let (name, bs) ← stringBody bs
  let read ← member sofar name
  read (← colon bs)

theorem memberFrom_then (member : α → String → Except Fault (Reader α)) (sofar : α) (f : α → Reader α) (bs : Bytes) :
    (do
      let (next, bs) ← memberFrom member sofar bs
      f next bs) =
      match stringBody bs with
      | .error e => .error e
      | .ok (name, bs) =>
        match member sofar name with
        | .error e => .error e
        | .ok read =>
          match colon bs with
          | .error e => .error e
          | .ok bs =>
            match read bs with
            | .error e => .error e
            | .ok (next, bs) => f next bs := by
  simp only [memberFrom, bind, Except.bind]
  cases stringBody bs with
  | error e => rfl
  | ok x =>
    dsimp only
    cases member sofar x.1 with
    | error e => rfl
    | ok read =>
      dsimp only
      cases colon x.2 with
      | error e => rfl
      | ok bs =>
        dsimp only
        cases read bs <;> rfl

theorem objectFrom_succ (member : α → String → Except Fault (Reader α)) (fuel : Nat) (first : Bool) (sofar : α)
    (bs : Bytes) :
    objectFrom member (fuel + 1) first sofar bs =
      let named (bs : Bytes) : Except Fault (α × Bytes) := do
        let (next, bs) ← memberFrom member sofar bs
        objectFrom member fuel false next bs
      match skipSpace bs with
      | [] => .error .endInObject
      | b :: bs =>
        if b = 0x7d then .ok (sofar, bs)
        else if first then if b = 0x22 then named bs else .error .keyMustBeString
        else if b = 0x2c then
          match skipSpace bs with
          | [] => .error .endInValue
          | c :: bs =>
            if c = 0x22 then named bs else if c = 0x7d then .error .trailingComma else .error .keyMustBeString
        else .error .expectedObjectCommaOrEnd := by
  simp only [memberFrom_then]
  exact (objectFrom.eq_def ..).trans rfl

/-- The values that members make of a value, one after the other. -/
inductive Folds (P : α → String → Bytes → α → Prop) : α → List (String × Bytes) → α → Prop where
  | nil (a : α) : Folds P a [] a
  | cons {a b c : α} {f : String × Bytes} {fs : List (String × Bytes)} : P a f.1 f.2 b → Folds P b fs c →
      Folds P a (f :: fs) c

/-- Every name is refused, or the reader that it gets reads these texts and makes these values. -/
def Admits (member : α → String → Except Fault (Reader α)) (P : α → String → Bytes → α → Prop) : Prop :=
  ∀ sofar name, (∃ read, member sofar name = .ok read ∧ Accepts read (P sofar name)) ∨
    (∃ e, member sofar name = .error e) ∧ ∀ t v, ¬ P sofar name t v

section
variable {member : α → String → Except Fault (Reader α)} {P : α → String → Bytes → α → Prop}

theorem colon_of_blank {w : Bytes} (h : Blank w) (bs : Bytes) : colon (w ++ 0x3a :: bs) = .ok bs := by
  unfold colon
  rw [skipSpace_blank_cons h (by decide)]
  rfl

theorem blank_of_colon {bs rest : Bytes} (h : colon bs = .ok rest) : ∃ w, Blank w ∧ bs = w ++ 0x3a :: rest := by
  unfold colon at h
  split at h
  · cases h
  · rename_i b bs' hskip
    obtain ⟨w, hw, rfl⟩ := skipSpace_eq_cons hskip
    split at h
    · rename_i hb
      cases h
      exact ⟨w, hw, hb ▸ rfl⟩
    · cases h

theorem memberFrom_of_text (h : Admits member P) {u bs rest : Bytes} {f : String × Bytes} (hu : MemberText u f)
    (hbs : 0x22 :: bs = u ++ rest) {sofar next : α} (hstep : P sofar f.1 f.2 next) (hrest : Delimited rest) :
    memberFrom member sofar bs = .ok (next, rest) := by
  obtain ⟨n, w, w', rfl, hname, hw, hw'⟩ := hu
  simp only [List.cons_append, List.cons.injEq, true_and, List.append_assoc] at hbs
  rcases h sofar f.1 with ⟨read, hmember, hread⟩ | ⟨-, hnone⟩
  · have hbody := stringBody_eq_ok_iff.mpr ⟨n, hbs, hname⟩
    unfold memberFrom
    simp only [hbody, hmember, colon_of_blank hw, bind, Except.bind]
    exact hread.complete w' f.2 next rest hw' hstep hrest
  · exact absurd hstep (hnone _ _)

theorem text_of_memberFrom (h : Admits member P) {bs rest : Bytes} {sofar next : α}
    (hread : memberFrom member sofar bs = .ok (next, rest)) :
    ∃ u f, 0x22 :: bs = u ++ rest ∧ MemberText u f ∧ P sofar f.1 f.2 next := by
  unfold memberFrom at hread
  obtain ⟨⟨name, bs'⟩, hbody, hrest⟩ := bind_eq_ok_iff.mp hread
  obtain ⟨read, hmember, hafter⟩ := bind_eq_ok_iff.mp hrest
  obtain ⟨bs'', hcolon, hvalue⟩ := bind_eq_ok_iff.mp hafter
  obtain ⟨n, rfl, hname⟩ := stringBody_eq_ok_iff.mp hbody
  obtain ⟨w, hw, rfl⟩ := blank_of_colon hcolon
  rcases h sofar name with ⟨read', hmember', haccepts⟩ | ⟨⟨e, hnone⟩, -⟩
  · obtain rfl := Except.ok.inj (hmember.symm.trans hmember')
    obtain ⟨w', t, hw', rfl, hstep⟩ := haccepts.sound _ _ _ hvalue
    refine ⟨0x22 :: (n ++ (w ++ 0x3a :: (w' ++ t))), (name, t), ?_, ⟨n, w, w', rfl, hname, hw, hw'⟩, hstep⟩
    simp only [List.cons_append, List.append_assoc]
  · rw [hmember] at hnone
    cases hnone

theorem MemberText.exists_cons {u : Bytes} {f : String × Bytes} (h : MemberText u f) : ∃ v, u = 0x22 :: v := by
  obtain ⟨n, w, w', rfl, -⟩ := h
  exact ⟨_, rfl⟩

theorem objectFrom_of_parts (h : Admits member P) {t rest : Bytes} {us : List Bytes} (ht : MoreParts 0x7d t us)
    {fs : List (String × Bytes)} (hus : List.Forall₂ MemberText us fs) {sofar v : α} (hfs : Folds P sofar fs v) {fuel : Nat}
    (hfuel : us.length < fuel) : objectFrom member fuel false sofar (t ++ rest) = .ok (v, rest) := by
  induction ht generalizing fs sofar fuel with
  | close hw =>
    obtain ⟨fuel, rfl⟩ : ∃ n, fuel = n + 1 := ⟨fuel - 1, by simp at hfuel; omega⟩
    cases hus
    cases hfs
    rw [objectFrom_succ, List.append_assoc, List.singleton_append, skipSpace_blank_cons hw (by decide)]
    simp
  | @comma w w' u t us hw hw' ht ih =>
    obtain ⟨fuel, rfl⟩ : ∃ n, fuel = n + 1 := ⟨fuel - 1, by simp at hfuel; omega⟩
    obtain _ | ⟨hu, hus⟩ := hus
    obtain _ | ⟨hstep, hfs⟩ := hfs
    obtain ⟨u', rfl⟩ := hu.exists_cons
    have hmember : memberFrom member sofar (u' ++ (t ++ rest)) = .ok (_, t ++ rest) :=
      memberFrom_of_text h hu rfl hstep (ht.delimited (.inr rfl) rest)
    have hrest : objectFrom member fuel false _ (t ++ rest) = .ok (v, rest) :=
      ih hus hfs (by simp at hfuel; omega)
    rw [objectFrom_succ, List.append_assoc, List.cons_append, skipSpace_blank_cons hw (by decide)]
    simp only [List.append_assoc, List.cons_append, skipSpace_blank_cons hw' (by decide : isSpace 0x22 = false), hmember,
      bind, Except.bind]
    simpa using hrest

theorem parts_of_objectFrom (h : Admits member P) {fuel : Nat} {sofar v : α} {bs rest : Bytes}
    (hread : objectFrom member fuel false sofar bs = .ok (v, rest)) :
    ∃ t us fs, bs = t ++ rest ∧ MoreParts 0x7d t us ∧ List.Forall₂ MemberText us fs ∧ Folds P sofar fs v := by
  induction fuel generalizing sofar bs with
  | zero => cases hread
  | succ fuel ih =>
    rw [objectFrom_succ] at hread
    dsimp only at hread
    split at hread
    · cases hread
    · rename_i b bs' hskip
      obtain ⟨w, hw, rfl⟩ := skipSpace_eq_cons hskip
      split at hread
      · rename_i hb
        cases hread
        subst hb
        exact ⟨w ++ [0x7d], [], [], by simp, .close hw, .nil, .nil _⟩
      · rw [if_neg (by simp)] at hread
        split at hread
        · rename_i hb
          subst hb
          split at hread
          · cases hread
          · rename_i c bs'' hskip'
            obtain ⟨w', hw', rfl⟩ := skipSpace_eq_cons hskip'
            split at hread
            · rename_i hc
              subst hc
              obtain ⟨⟨next, after⟩, hmember, hread⟩ := bind_eq_ok_iff.mp hread
              obtain ⟨u, f, hu, htext, hstep⟩ := text_of_memberFrom h hmember
              obtain ⟨t, us, fs, rfl, ht, hus, hfs⟩ := ih hread
              refine ⟨w ++ 0x2c :: (w' ++ (u ++ t)), u :: us, f :: fs, ?_, .comma hw hw' ht, .cons htext hus,
                .cons hstep hfs⟩
              rw [hu]
              simp only [List.append_assoc, List.cons_append]
            · split at hread <;> cases hread
        · cases hread

/-- **Which objects are read:** those whose names are admitted, with the values that their readers read. -/
theorem objectMembers_eq_ok_iff (h : Admits member P) {start v : α} {bs rest : Bytes} :
    objectMembers member start bs = .ok (v, rest) ↔
      ∃ t us fs, bs = t ++ rest ∧ Parts 0x7d t us ∧ List.Forall₂ MemberText us fs ∧ Folds P start fs v := by
  unfold objectMembers
  rw [objectFrom_succ]
  dsimp only
  constructor
  · intro hread
    split at hread
    · cases hread
    · rename_i b bs' hskip
      obtain ⟨w, hw, rfl⟩ := skipSpace_eq_cons hskip
      split at hread
      · rename_i hb
        cases hread
        subst hb
        exact ⟨w ++ [0x7d], [], [], by simp, .none hw, .nil, .nil _⟩
      · rw [if_pos rfl] at hread
        split at hread
        · rename_i hb
          subst hb
          obtain ⟨⟨next, after⟩, hmember, hread⟩ := bind_eq_ok_iff.mp hread
          obtain ⟨u, f, hu, htext, hstep⟩ := text_of_memberFrom h hmember
          obtain ⟨t, us, fs, rfl, ht, hus, hfs⟩ := parts_of_objectFrom h hread
          refine ⟨w ++ (u ++ t), u :: us, f :: fs, ?_, .some hw ht, .cons htext hus, .cons hstep hfs⟩
          rw [hu]
          simp only [List.append_assoc]
        · cases hread
  · rintro ⟨t, us, fs, rfl, ht, hus, hfs⟩
    cases ht with
    | none hw =>
      cases hus
      cases hfs
      rw [List.append_assoc, List.singleton_append, skipSpace_blank_cons hw (by decide)]
      simp
    | @some w u t us hw ht =>
      obtain _ | ⟨hu, hus⟩ := hus
      obtain _ | ⟨hstep, hfs⟩ := hfs
      obtain ⟨u', rfl⟩ := hu.exists_cons
      have hmember : memberFrom member start (u' ++ (t ++ rest)) = .ok (_, t ++ rest) :=
        memberFrom_of_text h hu rfl hstep (ht.delimited (.inr rfl) rest)
      have hlength := ht.length_lt
      have hrest : objectFrom member (w ++ (0x22 :: u' ++ t) ++ rest).length false _ (t ++ rest) = .ok (v, rest) :=
        objectFrom_of_parts h ht hus hfs (by simp; omega)
      simp only [List.append_assoc, List.cons_append] at hrest ⊢
      rw [skipSpace_blank_cons hw (by decide)]
      simp only [hmember, bind, Except.bind]
      simpa using hrest

end
end TransitLink.Json
